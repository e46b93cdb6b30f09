/-
  OpenFelt.Game.DealOrder — which card goes where (`src/game/multiway.rs`).

  Two rounds are dealt clockwise from the button, which is last, then the board, and no
  card is burnt. `InOrder` says so of a hand: the seat dealt `i`-th of `n` holds cards
  `i` and `n + i` of the deck, and the board is the cards after them. Proved: the
  constructor deals so, and every call on a hand leaves it so (`HandStarts.inOrder_run`).
-/

import OpenFelt.Game.Dealing

namespace OpenFelt

namespace HandConfig

/-- The seats of a configuration in the order they are dealt. -/
def dealingOrder (c : HandConfig) : List SeatId :=
  (clockwiseFrom c.tableSize c.button 1 c.tableSize.get).filter fun p => (c.seatStacks.lookup p).isSome

end HandConfig

namespace MultiwayHand

section order
variable {c : HandConfig} {h h' table : MultiwayHand} {n chips : Nat} {sb bb first p : SeatId}
  {seats : List (Option MultiwaySeatState)}

/-- The cards of a hand are the configured deck's, in the order of the deal. -/
structure InOrder (c : HandConfig) (h : MultiwayHand) : Prop where
  deck : h.deck.cards = c.deck.cards
  index : h.deck.index = 2 * c.dealingOrder.length + h.board.length
  hole : ∀ p, (h.seat p).holeCards =
    ((c.dealingOrder.zip (c.deck.cards.take c.dealingOrder.length)).lookup p).toList ++
      ((c.dealingOrder.zip ((c.deck.cards.drop c.dealingOrder.length).take c.dealingOrder.length)).lookup p).toList
  board : h.board = (c.deck.cards.drop (2 * c.dealingOrder.length)).take h.board.length

/-- Drawing goes on where the deck stands. -/
theorem InOrder.draws (hi : InOrder c h) (hd : Draws h h' n) (hroom : h.deck.index ≤ h.deck.cards.length) : InOrder c h' := by
  have hcards : h'.deck.cards = c.deck.cards := by rw [hd.deck]; exact hi.deck
  have hlen : (h.deck.upcoming n).length = n := by
    have hend := hd.room hroom
    rw [Deck.upcoming, List.length_take, List.length_drop]
    omega
  have hboard : h'.board.length = h.board.length + n := by rw [hd.board, List.length_append, hlen]
  have hindex := hi.index
  refine ⟨hcards, ?_, fun p => (hd.hole p).trans (hi.hole p), ?_⟩
  · rw [hd.deck, hboard]
    show h.deck.index + n = _
    omega
  · rw [hboard, List.take_add, List.drop_drop, ← hi.board, hd.board, Deck.upcoming, hi.deck, hindex]

/-! ## The rounds -/

theorem lookup_zip_none {l : List SeatId} {cards : List Card} (hp : p ∉ l) : (l.zip cards).lookup p = none := by
  refine List.lookup_eq_none_iff.mpr ?_
  intro e he
  have hne : p ≠ e.1 := fun heq => hp (heq ▸ (List.of_mem_zip (a := e.1) (b := e.2) he).1)
  simpa using hne

/-- A round gives each seat the card at its place. -/
theorem dealHoleCards_hole {l : List SeatId} (hn : l.Nodup) (hl : ∀ q ∈ l, occupiedIn h.seats q = true)
    (hroom : h.deck.index + l.length ≤ h.deck.cards.length) (p : SeatId) :
    ((dealHoleCards l h).seat p).holeCards =
      (h.seat p).holeCards ++ ((l.zip (h.deck.upcoming l.length)).lookup p).toList := by
  induction l generalizing h with
  | nil => simp [dealHoleCards]
  | cons q l ih =>
    obtain ⟨hq, hrest⟩ := List.nodup_cons.mp hn
    rw [List.length_cons] at hroom
    have hocc := hl q List.mem_cons_self
    have hlt : h.deck.index < h.deck.cards.length := by omega
    have hnext : h.deck.upcoming (q :: l).length =
        h.deck.cards[h.deck.index] :: Deck.upcoming { h.deck with index := h.deck.index + 1 } l.length := by
      rw [List.length_cons, Deck.upcoming, List.drop_eq_getElem_cons hlt]
      rfl
    simp only [dealHoleCards, Deck.deal_of_lt hlt]
    generalize hk : MultiwayHand.updateSeat { h with deck := { h.deck with index := h.deck.index + 1 } } q (fun state =>
      { state with holeCards := state.holeCards ++ [h.deck.cards[h.deck.index]] }) = k
    have htable : SameTable { h with deck := { h.deck with index := h.deck.index + 1 } } k := by
      rw [← hk]; exact updateSeat_table _ _ _
    have hdeck : k.deck = { h.deck with index := h.deck.index + 1 } := by rw [htable.frame]
    have hdealt := ih hrest (fun p hp => (htable.occupied p).trans (hl p (List.mem_cons_of_mem _ hp))) (by
      rw [hdeck]
      show h.deck.index + 1 + l.length ≤ h.deck.cards.length
      omega)
    rw [hdealt, hdeck, hnext, List.zip_cons_cons]
    by_cases hpq : p = q
    · subst hpq
      rw [lookup_zip_none hq, List.lookup_cons_self, ← hk, seat_updateSeat_self (by exact hocc)]
      simp
    · have hskip : (p == q) = false := beq_eq_false_iff_ne.mpr hpq
      rw [List.lookup_cons, hskip, ← hk, seat_updateSeat_ne hpq]

theorem Built.dealingOrder (hb : Built c seats chips sb bb first table h) :
    clockwiseOccupied c.tableSize seats c.button = c.dealingOrder ∧ c.dealingOrder.Nodup ∧ c.dealingOrder.length ≤ 9 := by
  have hs : Seating c.tableSize c.seatStacks seats chips := placeStacks_seating (seating_empty _) hb.placed
  have hsame : clockwiseOccupied c.tableSize seats c.button = c.dealingOrder := by
    refine List.filter_congr ?_
    intro p _
    rw [occupiedIn, hs.seat, Option.isSome_map]
  have hbutton : c.button.val < c.tableSize.get := hs.length ▸ lt_of_occupiedIn hb.button
  refine ⟨hsame, (nodup_clockwise hbutton).filter _, (List.length_filter_le ..).trans ?_⟩
  simpa [clockwiseFrom] using c.tableSize.le_nine

theorem lookup_isSome {l : List (SeatId × Nat)} : (l.lookup p).isSome = true ↔ p ∈ l.map (·.1) := by
  rw [← not_iff_not, Bool.not_eq_true, Option.isSome_eq_false_iff, Option.isNone_iff_eq_none, List.lookup_eq_none_iff,
    List.mem_map]
  constructor
  · intro h hp
    obtain ⟨e, he, rfl⟩ := hp
    simpa using h e he
  · intro h e he
    have hne : p ≠ e.1 := fun heq => h ⟨e, he, heq.symm⟩
    simpa using hne

/-- Each seat with a stack is dealt in, and no other. -/
theorem Built.dealingOrder_perm (hb : Built c seats chips sb bb first table h) :
    c.dealingOrder.Perm (c.seatStacks.map (·.1)) := by
  have hs : Seating c.tableSize c.seatStacks seats chips := placeStacks_seating (seating_empty _) hb.placed
  have hbutton : c.button.val < c.tableSize.get := hs.length ▸ lt_of_occupiedIn hb.button
  refine (List.perm_ext_iff_of_nodup hb.dealingOrder.2.1 hs.nodup).mpr ?_
  intro p
  refine ⟨fun hp => lookup_isSome.mp (List.mem_filter.mp hp).2, fun hp => ?_⟩
  have hocc : occupiedIn seats p = true := by
    rw [occupiedIn, hs.seat, Option.isSome_map]
    exact lookup_isSome.mpr hp
  have hcount := count_clockwiseOccupied hs.length hbutton hocc
  rw [hb.dealingOrder.1] at hcount
  exact List.count_pos_iff.mp (by omega)

/-- The table a configuration posts. -/
theorem Built.inOrder (hdeck : c.deck.Shuffled) (hb : Built c seats chips sb bb first table h) : InOrder c table := by
  obtain ⟨horder, hnodup, hfew⟩ := hb.dealingOrder
  have hs : Seating c.tableSize c.seatStacks seats chips := placeStacks_seating (seating_empty _) hb.placed
  have hocc : ∀ p ∈ c.dealingOrder, occupiedIn seats p = true := by
    intro p hp
    rw [← horder] at hp
    exact (List.mem_filter.mp hp).2
  have hcards := hdeck.length
  have hindex := hdeck.2
  have hkept : Draws (c.dealtTo seats chips sb bb) table 0 := (hb.posting hdeck).table.draws (hb.hole_kept hdeck)
  have hunseen : ∀ p, ((seated c.tableSize seats c.button sb bb c.blindValues chips c.deck).seat p).holeCards = [] := by
    intro p
    show (seatOf seats p).holeCards = []
    rw [seatOf, hs.seat]
    cases c.seatStacks.lookup p <;> rfl
  have hdealtTo : c.dealtTo seats chips sb bb = dealHoleCards c.dealingOrder
      (dealHoleCards c.dealingOrder (seated c.tableSize seats c.button sb bb c.blindValues chips c.deck)) := by
    rw [← horder]
    rfl
  have hroom : (seated c.tableSize seats c.button sb bb c.blindValues chips c.deck).deck.index + c.dealingOrder.length ≤
      (seated c.tableSize seats c.button sb bb c.blindValues chips c.deck).deck.cards.length := by
    show c.deck.index + _ ≤ c.deck.cards.length
    omega
  obtain ⟨f1, _, o1, _⟩ := dealHoleCards_spec hocc hroom
  have hone := dealHoleCards_hole hnodup hocc hroom
  generalize dealHoleCards c.dealingOrder (seated c.tableSize seats c.button sb bb c.blindValues chips c.deck) = once at *
  have hdeck1 : once.deck = { c.deck with index := c.deck.index + c.dealingOrder.length } := by rw [f1]; rfl
  have hocc1 : ∀ p ∈ c.dealingOrder, occupiedIn once.seats p = true := fun p hp => (o1 p).trans (hocc p hp)
  have hroom1 : once.deck.index + c.dealingOrder.length ≤ once.deck.cards.length := by
    rw [hdeck1]
    show c.deck.index + _ + _ ≤ c.deck.cards.length
    omega
  obtain ⟨f2, _⟩ := dealHoleCards_spec hocc1 hroom1
  have htwice := dealHoleCards_hole hnodup hocc1 hroom1
  rw [← hdealtTo] at f2 htwice
  have hdeck2 : (c.dealtTo seats chips sb bb).deck =
      { c.deck with index := c.deck.index + c.dealingOrder.length + c.dealingOrder.length } := by rw [f2, hdeck1]
  have hboard2 : (c.dealtTo seats chips sb bb).board = [] := by rw [f2, f1]; rfl
  refine InOrder.draws ⟨by rw [hdeck2], ?_, fun p => ?_, ?_⟩ hkept ?_
  · rw [hdeck2, hboard2]
    show c.deck.index + _ + _ = _
    rw [hindex, Nat.two_mul, Nat.zero_add]
    rfl
  · rw [htwice, hone, hunseen, hdeck1, List.nil_append]
    show _ ++ ((c.dealingOrder.zip ((c.deck.cards.drop (c.deck.index + c.dealingOrder.length)).take _)).lookup p).toList = _
    rw [hindex, Nat.zero_add]
    show ((c.dealingOrder.zip ((c.deck.cards.drop c.deck.index).take _)).lookup p).toList ++ _ = _
    rw [hindex, List.drop_zero]
  · rw [hboard2]
    rfl
  · rw [hdeck2]
    show c.deck.index + _ + _ ≤ c.deck.cards.length
    omega

/-! ## Runs -/

theorem HandStarts.inOrder (hstarts : HandStarts c h) : InOrder c h := by
  obtain ⟨hdeck, start, paced, hb, rfl⟩ := hstarts
  obtain ⟨seats, chips, sb, bb, first, table, hbuilt⟩ := build_built hb
  obtain ⟨⟨n, hdraws⟩, _⟩ := hbuilt.draws hdeck
  have hfrom := hbuilt.dealtFrom hdeck
  exact (hbuilt.inOrder hdeck).draws (hdraws.rest rfl rfl rfl rfl) (by rw [hfrom.deck]; exact hfrom.room)

/-- Whatever is called, the cards stay those of the deal. -/
theorem HandStarts.inOrder_run (hstarts : HandStarts c h) (ops : List HandOp) : InOrder c (h.run ops) := by
  obtain ⟨hfrom, hon⟩ := hstarts.dealtFrom
  obtain ⟨⟨n, hdraws⟩, _⟩ := hstarts.stage.draws_run hon ops
  exact hstarts.inOrder.draws hdraws (by rw [hfrom.deck]; exact hfrom.room)

end order

end MultiwayHand

end OpenFelt
