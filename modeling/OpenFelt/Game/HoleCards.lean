/-
  OpenFelt.Game.HoleCards — everybody dealt in holds two cards.

  A round deals one card to each occupied seat, clockwise from the button
  (`dealHoleCards_count`); no post, action or street changes a hand.
-/

import OpenFelt.Game.Unpaced

namespace OpenFelt

/-- A clockwise turn visits each seat of the table once. -/
theorem nodup_clockwise {size : TableSize} {start : SeatId} (hs : start.val < size.get) :
    (clockwiseFrom size start 1 size.get).Nodup := by
  refine List.Nodup.map_on (fun k hk k' hk' he => ?_) List.nodup_range'
  rw [List.mem_range'_1] at hk hk'
  have hrot : Clockwise.rot size.get start.val k = Clockwise.rot size.get start.val k' := congrArg Fin.val he
  rw [← Clockwise.gap_rot hs (show 0 < k by omega) (by omega), hrot, Clockwise.gap_rot hs (by omega) (by omega)]

theorem count_clockwiseOccupied {size : TableSize} {seats : List (Option MultiwaySeatState)} {start p : SeatId}
    (hlen : seats.length = size.get) (hs : start.val < size.get) (hp : occupiedIn seats p = true) :
    (clockwiseOccupied size seats start).count p = 1 := by
  refine List.count_eq_one_of_mem ((nodup_clockwise hs).filter _) (List.mem_filter.mpr ⟨?_, hp⟩)
  have hlt : p.val < size.get := hlen ▸ lt_of_occupiedIn hp
  refine List.mem_map.mpr ⟨Clockwise.gap size.get start.val p.val, ?_, Fin.ext (Clockwise.rot_gap hs hlt)⟩
  have h1 := Clockwise.gap_pos (n := size.get) (i := start.val) (j := p.val) size.pos
  have h2 := Clockwise.gap_le (n := size.get) (i := start.val) (j := p.val) size.pos
  rw [List.mem_range'_1]
  omega

namespace MultiwayHand

/-- Two cards to each seat. -/
def TwoCards (h : MultiwayHand) : Prop := ∀ p, occupiedIn h.seats p = true → (h.seat p).holeCards.length = 2

section cards
variable {h g : MultiwayHand} {p : SeatId} {posted : Nat}

/-- A round of dealing adds a card for each time a seat is in the list. -/
theorem dealHoleCards_count {l : List SeatId} (hl : ∀ p ∈ l, occupiedIn h.seats p = true)
    (hroom : h.deck.index + l.length ≤ h.deck.cards.length) (p : SeatId) :
    ((dealHoleCards l h).seat p).holeCards.length = (h.seat p).holeCards.length + l.count p := by
  induction l generalizing h with
  | nil => rfl
  | cons q l ih =>
    rw [List.length_cons] at hroom
    have hq := hl q List.mem_cons_self
    have hdeal := Deck.deal_of_lt (d := h.deck) (by omega)
    simp only [dealHoleCards, hdeal]
    rw [ih ?_ ?_]
    · by_cases he : p = q
      · subst he
        rw [seat_updateSeat_self (by exact hq), List.count_cons_self, List.length_append, List.length_singleton]
        show (h.seat p).holeCards.length + 1 + l.count p = _
        omega
      · rw [seat_updateSeat_ne he, List.count_cons_of_ne (Ne.symm he)]
    · intro x hx
      rw [(updateSeat_table _ q _).occupied]
      exact hl x (List.mem_cons_of_mem _ hx)
    · show h.deck.index + 1 + l.length ≤ h.deck.cards.length
      omega

/-- A write that leaves the cards of a seat leaves those of all. -/
theorem updateSeat_cards {f : MultiwaySeatState → MultiwaySeatState} (hf : ∀ st, (f st).holeCards = st.holeCards)
    (h : MultiwayHand) (q p : SeatId) : ((h.updateSeat q f).seat p).holeCards = (h.seat p).holeCards := by
  by_cases he : p = q
  · subst he
    cases hocc : occupiedIn h.seats p with
    | true => rw [seat_updateSeat_self hocc, hf]
    | false =>
      have hocc' : occupiedIn (h.updateSeat p f).seats p = false := by
        rw [(updateSeat_table h p f).occupied]
        exact hocc
      simp only [seat, seatOf_vacant hocc, seatOf_vacant hocc']
  · rw [seat_updateSeat_ne he]

theorem commitDeadChips_cards (h : MultiwayHand) (q : SeatId) (n : Nat) (p : SeatId) :
    ((h.commitDeadChips q n).seat p).holeCards = (h.seat p).holeCards := by
  unfold commitDeadChips
  dsimp only
  rw [updateSeat_cards]
  · rfl
  · intro st
    rfl

theorem foldl_cards {α : Type} {s : MultiwayHand → α → MultiwayHand}
    (hs : ∀ h x, ((s h x).seat p).holeCards = (h.seat p).holeCards) (l : List α) (h : MultiwayHand) :
    ((l.foldl s h).seat p).holeCards = (h.seat p).holeCards := by
  induction l generalizing h with
  | nil => rfl
  | cons x l ih => rw [List.foldl_cons, ih, hs]

theorem meet_cards (h : MultiwayHand) (post : ForcedPost) (p : SeatId) :
    ((h.meet post).seat p).holeCards = (h.seat p).holeCards := by
  unfold meet
  split
  · unfold commitChips
    dsimp only
    rw [updateSeat_cards]
    · rfl
    · intro st
      rfl
  · exact commitDeadChips_cards h _ _ p

/-- Antes, blinds and posts leave the cards a configuration deals. -/
theorem Built.hole_kept {c : HandConfig} {table : MultiwayHand} {sb bb first : SeatId} {chips : Nat}
    {seats : List (Option MultiwaySeatState)} (hdeck : c.deck.Shuffled) (hb : Built c seats chips sb bb first table h)
    (p : SeatId) :
    (table.seat p).holeCards = ((c.dealtTo seats chips sb bb).seat p).holeCards := by
  have hante : ((c.dealtTo seats chips sb bb).postAntes.seat p).holeCards =
      ((c.dealtTo seats chips sb bb).seat p).holeCards := by
    unfold postAntes
    split
    · exact foldl_cards (fun h q => commitDeadChips_cards h q _ p) _ _
    · rfl
  rw [(hb.table_meets hdeck).1, foldl_cards (fun h post => meet_cards h post p), hante]

/-- The table a configuration deals. -/
theorem Built.twoCards {c : HandConfig} {table : MultiwayHand} {sb bb first : SeatId} {chips : Nat}
    {seats : List (Option MultiwaySeatState)} (hdeck : c.deck.Shuffled) (hb : Built c seats chips sb bb first table h) :
    table.TwoCards := by
  intro p hp
  have hd := (hb.dealtIn hdeck).1
  have hs : Seating c.tableSize c.seatStacks seats chips := placeStacks_seating (seating_empty _) hb.placed
  have hocc : occupiedIn seats p = true := by
    rw [(hb.posting hdeck).table.occupied, hd.occupied] at hp
    rw [occupiedIn, hs.seat, Option.isSome_map]
    exact hp
  have hbutton : c.button.val < c.tableSize.get := hs.length ▸ lt_of_occupiedIn hb.button
  have hcount := count_clockwiseOccupied hs.length hbutton hocc
  rw [hb.hole_kept hdeck]
  unfold HandConfig.dealtTo
  have hmem : ∀ q ∈ clockwiseOccupied c.tableSize seats c.button, occupiedIn seats q = true :=
    fun q hq => (List.mem_filter.mp hq).2
  have hfew : (clockwiseOccupied c.tableSize seats c.button).length ≤ 9 := by
    refine (List.length_filter_le ..).trans ?_
    simpa [clockwiseFrom] using c.tableSize.le_nine
  have hcards := hdeck.length
  have hindex := hdeck.2
  have hroom : (seated c.tableSize seats c.button sb bb c.blindValues chips c.deck).deck.index +
      (clockwiseOccupied c.tableSize seats c.button).length ≤
        (seated c.tableSize seats c.button sb bb c.blindValues chips c.deck).deck.cards.length := by
    show c.deck.index + _ ≤ c.deck.cards.length
    omega
  obtain ⟨hframe, _, hsame, _⟩ := dealHoleCards_spec (h := seated c.tableSize seats c.button sb bb c.blindValues chips c.deck)
    hmem hroom
  dsimp only
  rw [dealHoleCards_count (fun q hq => (hsame q).trans (hmem q hq)) ?_, dealHoleCards_count hmem hroom, hcount]
  · have hnew : (seated c.tableSize seats c.button sb bb c.blindValues chips c.deck).seat p = .new (c.start p) := by
      show seatOf seats p = _
      rw [seatOf, hs.seat, HandConfig.start]
      rw [occupiedIn, hs.seat, Option.isSome_map] at hocc
      obtain ⟨n, hn⟩ := Option.isSome_iff_exists.mp hocc
      rw [hn]
      rfl
    rw [hnew]
    rfl
  · rw [hframe]
    show c.deck.index + _ + _ ≤ c.deck.cards.length
    omega

/-- A hand that a command leaves in play holds the cards it held. -/
theorem Playing.twoCards {command : SeatCommand} (hp : h.Playing posted) (ht : h.TwoCards)
    (hv : h.validateCommand command = .ok ())
    (hstill : (h.applyCommand command).2.toAct.isSome = true) : (h.applyCommand command).2.TwoCards := by
  obtain ⟨o, g, _, hacted, hu, _, _, hproceeds⟩ := hp.command_cases hv
  have happly : (h.applyCommand command).2 = h.applyValidatedAction command.seat command.action := by
    rw [applyCommand, hv]
  have hg : g.TwoCards := by
    intro p hocc
    rw [hacted.cards]
    exact ht p ((hacted.occupied p).symm.trans hocc)
  rw [happly] at hstill ⊢
  generalize h.applyValidatedAction command.seat command.action = k at hproceeds hstill
  cases hproceeds with
  | foldedOut hone => rw [(awardFold_over hu hone).toAct] at hstill; cases hstill
  | asks q _ _ _ => exact hg
  | deals _ _ hriver _ =>
    intro p hocc
    rw [seat_dealStreet hu hriver]
    exact hg p (((dealStreet_table hu hriver).2.1 p).symm.trans hocc)
  | shows hcount _ hend =>
    rcases hu.begins hcount hend with ⟨_, progress, hs, he⟩ | ⟨_, k, _, _, _, he⟩
    · rw [he, hs.contest.waiting] at hstill; cases hstill
    · rw [he, (settle_over k).toAct] at hstill; cases hstill

end cards

end MultiwayHand

end OpenFelt
