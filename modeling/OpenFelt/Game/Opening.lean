/-
  OpenFelt.Game.Opening — the hand a configuration deals.

  `with_prepared_deck` seats the stacks, deals two cards each, takes antes, blinds and
  forced posts and finds the first to act. Proved, for any accepted configuration and any
  order of the deck: the books it leaves are under way with nobody's chips changed
  (`build_cases`), and either the street is open or, the blinds having put all but one
  player all-in, the showdown has begun.
-/

import OpenFelt.Game.Showing

namespace OpenFelt

open Betting

/-- What `with_prepared_deck` is given. -/
structure HandConfig where
  tableSize : TableSize
  button : SeatId
  seatStacks : List (SeatId × Nat)
  forcedPosts : List ForcedPost
  blindValues : BlindValues
  deck : Deck
  deriving DecidableEq, Repr

namespace HandConfig

def build (c : HandConfig) : Except MultiwayConfigError MultiwayHand :=
  MultiwayHand.withPreparedDeck c.tableSize c.button c.seatStacks c.forcedPosts c.blindValues c.deck

/-- The chips a seat starts the hand with. -/
def start (c : HandConfig) (p : SeatId) : Nat := (c.seatStacks.lookup p).getD 0

/-- The posts that do not count towards a call. -/
def deadPosts (c : HandConfig) : List (SeatId × Nat) :=
  (c.forcedPosts.filter fun post => !post.live).map fun post => (post.seat, post.amount)

/-- The seats with two cards dealt to each, clockwise from the button. -/
def dealtTo (c : HandConfig) (seats : List (Option MultiwaySeatState)) (chips : Nat) (smallBlind bigBlind : SeatId) :
    MultiwayHand :=
  let occupied := clockwiseOccupied c.tableSize seats c.button
  MultiwayHand.dealHoleCards occupied (MultiwayHand.dealHoleCards occupied
    (MultiwayHand.seated c.tableSize seats c.button smallBlind bigBlind c.blindValues chips c.deck))

/-- No seat is asked for more than one chip outside the calls, the antes apart. -/
def Backed (c : HandConfig) : Prop := ∀ p, Ledger.credited c.deadPosts p ≤ 1

end HandConfig

namespace MultiwayHand

/-! ## Seating -/

theorem seatIn_set {seats : List (Option MultiwaySeatState)} {p q : SeatId} {st : MultiwaySeatState} (hp : p.val < seats.length) :
    seatIn (seats.set p.val (some st)) q = if q = p then some st else seatIn seats q := by
  simp only [seatIn, List.getElem?_set]
  by_cases h : q = p
  · subst h; simp [hp]
  · have hv : p.val ≠ q.val := fun e => h (Fin.ext e.symm)
    simp [h, hv]

/-- What seating the stacks leaves. -/
structure Seating (size : TableSize) (stacksGiven : List (SeatId × Nat)) (seats : List (Option MultiwaySeatState))
    (total : Nat) : Prop where
  length : seats.length = size.get
  seat : ∀ p, seatIn seats p = (stacksGiven.lookup p).map .new
  nodup : (stacksGiven.map (·.1)).Nodup
  positive : ∀ x ∈ stacksGiven, 0 < x.2
  sum : total = (stacksGiven.map (·.2)).sum
  fits : total ≤ u32Max

/-- One more seat, free so far, and its chips. -/
theorem Seating.place {size : TableSize} {done : List (SeatId × Nat)} {seats : List (Option MultiwaySeatState)} {total : Nat}
    (hs : Seating size done seats total) {p : SeatId} {n : Nat} (hin : p.val < size.get) (hnew : done.lookup p = none)
    (hpos : n ≠ 0) (hfit : total + n ≤ u32Max) :
    Seating size (done ++ [(p, n)]) (seats.set p.val (some (.new n))) (total + n) := by
  have hlt : p.val < seats.length := by rw [hs.length]; exact hin
  refine ⟨by rw [List.length_set]; exact hs.length, fun q => ?_, ?_, fun y hy => ?_, ?_, hfit⟩
  · rw [seatIn_set hlt, List.lookup_append, hs.seat]
    by_cases e : q = p
    · subst e; simp [hnew]
    · have hne : (q == p) = false := by simpa using e
      simp [e, List.lookup_cons, hne]
  · rw [List.map_append, List.nodup_append]
    refine ⟨hs.nodup, by simp, fun a ha b hb e => ?_⟩
    simp only [List.map_cons, List.map_nil, List.mem_singleton] at hb
    obtain ⟨y, hy, rfl⟩ := List.mem_map.mp ha
    have := List.lookup_eq_none_iff.mp hnew y hy
    rw [← hb, ← e] at this; simp at this
  · rcases List.mem_append.mp hy with hy | hy
    · exact hs.positive y hy
    · rw [List.mem_singleton.mp hy]; exact Nat.pos_of_ne_zero hpos
  · rw [hs.sum]; simp

theorem placeStacks_seating {size : TableSize} {rest done : List (SeatId × Nat)} {seats seats' : List (Option MultiwaySeatState)}
    {total total' : Nat} (hs : Seating size done seats total) (h : placeStacks size rest seats total = .ok (seats', total')) :
    Seating size (done ++ rest) seats' total' := by
  induction rest generalizing done seats total with
  | nil =>
    simp only [placeStacks, Except.ok.injEq, Prod.mk.injEq] at h
    rw [← h.1, ← h.2, List.append_nil]; exact hs
  | cons x rest ih =>
    obtain ⟨p, n⟩ := x
    simp only [placeStacks] at h
    split at h
    · cases h
    rename_i hin
    split at h
    · cases h
    rename_i hfree
    split at h
    · cases h
    rename_i hpos
    split at h
    · cases h
    rename_i hfit
    have hnew : done.lookup p = none := by
      have hnone : seatIn seats p = none := by simpa [occupiedIn] using hfree
      rw [hs.seat] at hnone; simpa using hnone
    have hmore := ih (hs.place (by simpa [TableSize.contains] using hin) hnew hpos (by simpa [fitsU32] using hfit)) h
    rwa [List.append_assoc] at hmore

/-- Distinct seats of the table with chips, within `u32` together, are all seated. -/
theorem placeStacks_ok {size : TableSize} {rest done : List (SeatId × Nat)}
    {seats : List (Option MultiwaySeatState)} {total : Nat}
    (hs : Seating size done seats total) (hnodup : ((done ++ rest).map (·.1)).Nodup)
    (hinside : ∀ entry ∈ rest, entry.1.val < size.get)
    (hpositive : ∀ entry ∈ rest, 0 < entry.2) (hfits : total + (rest.map (·.2)).sum ≤ u32Max) :
    ∃ seats' total', placeStacks size rest seats total = .ok (seats', total') := by
  induction rest generalizing done seats total with
  | nil => exact ⟨seats, total, rfl⟩
  | cons entry rest ih =>
    obtain ⟨p, n⟩ := entry
    have hin : size.contains p = true := by simpa [TableSize.contains] using hinside _ List.mem_cons_self
    have hpos : n ≠ 0 := Nat.pos_iff_ne_zero.mp (hpositive _ List.mem_cons_self)
    have hnew : done.lookup p = none := by
      rw [List.map_append, List.nodup_append] at hnodup
      refine List.lookup_eq_none_iff.mpr fun entry hentry => ?_
      have hne := hnodup.2.2 entry.1 (List.mem_map_of_mem hentry) p (List.mem_map_of_mem List.mem_cons_self)
      simpa using Ne.symm hne
    have hfree : occupiedIn seats p = false := by rw [occupiedIn, hs.seat, hnew]; rfl
    rw [List.map_cons, List.sum_cons] at hfits
    have hfit : fitsU32 (total + n) = true := by simp only [fitsU32, decide_eq_true_eq]; omega
    simp only [placeStacks, hin, hfree, hpos, hfit, Bool.not_true, Bool.false_eq_true, if_false]
    refine ih (hs.place (hinside _ List.mem_cons_self) hnew hpos (by omega)) ?_
      (fun entry he => hinside entry (List.mem_cons_of_mem _ he))
      (fun entry he => hpositive entry (List.mem_cons_of_mem _ he)) (by omega)
    rwa [List.append_assoc]

theorem seating_empty (size : TableSize) : Seating size [] (List.replicate size.get none) 0 :=
  ⟨by simp, fun p => by
    simp only [seatIn, List.getElem?_replicate, List.lookup_nil, Option.map_none]
    split <;> rfl, by simp, by simp, rfl, Nat.zero_le _⟩

/-! ## Positions and cards -/

section positions
variable {size : TableSize} {seats : List (Option MultiwaySeatState)} {p : SeatId}

/-- Going all the way round ends at the start, so from an occupied seat there is a next one. -/
theorem nextOccupied_some (hlen : seats.length = size.get) (hp : occupiedIn seats p = true) :
    ∃ q, nextOccupied size seats p = some q ∧ occupiedIn seats q = true := by
  have hlt : p.val < size.get := hlen ▸ lt_of_occupiedIn hp
  cases hq : nextOccupied size seats p with
  | none => exact absurd hp (by rw [find_clockwise_none hlt hq p hlt]; simp)
  | some q => exact ⟨q, rfl, (find_clockwise hlt hq).2.1⟩

theorem openingPositions_some (hlen : seats.length = size.get) {button : SeatId} (hb : occupiedIn seats button = true)
    (players : Nat) :
    ∃ sb bb first, openingPositions size seats button players = some (sb, bb, first) ∧ occupiedIn seats sb = true ∧
      occupiedIn seats bb = true ∧ occupiedIn seats first = true := by
  obtain ⟨a, ha, hao⟩ := nextOccupied_some hlen hb
  obtain ⟨b, hb', hbo⟩ := nextOccupied_some hlen hao
  obtain ⟨d, hd, hdo⟩ := nextOccupied_some hlen hbo
  unfold openingPositions
  split
  · exact ⟨button, a, button, by rw [ha]; rfl, hb, hao, hb⟩
  · exact ⟨a, b, d, by simp [ha, hb', hd], hao, hbo, hdo⟩

end positions

section deal
variable {h : MultiwayHand} {p : SeatId}

/-- Dealing a round hands every seat of the list a card and touches nothing else. -/
theorem dealHoleCards_spec {l : List SeatId} (hl : ∀ p ∈ l, occupiedIn h.seats p = true)
    (hroom : h.deck.index + l.length ≤ h.deck.cards.length) :
    dealHoleCards l h = { h with
        seats := (dealHoleCards l h).seats
        deck := { h.deck with index := h.deck.index + l.length } } ∧
      (dealHoleCards l h).seats.length = h.seats.length ∧
      (∀ p, occupiedIn (dealHoleCards l h).seats p = occupiedIn h.seats p) ∧
      ∀ p, occupiedIn h.seats p = true →
        (dealHoleCards l h).seat p = { h.seat p with holeCards := ((dealHoleCards l h).seat p).holeCards } := by
  induction l generalizing h with
  | nil => exact ⟨rfl, rfl, fun _ => rfl, fun _ _ => rfl⟩
  | cons q l ih =>
    simp only [List.length_cons] at hroom
    have hq := hl q List.mem_cons_self
    have hdeal := Deck.deal_of_lt (d := h.deck) (by omega)
    generalize hg : ({ h with deck := { h.deck with index := h.deck.index + 1 } } : MultiwayHand).updateSeat q
      (fun state => { state with holeCards := state.holeCards ++ [h.deck.cards[h.deck.index]] }) = g
    have hstep : dealHoleCards (q :: l) h = dealHoleCards l g := by
      simp only [dealHoleCards, hdeal, ← hg]
    have hocc : ∀ p, occupiedIn g.seats p = occupiedIn h.seats p := fun p => by
      rw [← hg]; exact (updateSeat_table _ q _).occupied p
    have hgdeck : g.deck = { h.deck with index := h.deck.index + 1 } := by rw [← hg]; rfl
    have hgframe : g = { h with seats := g.seats, deck := g.deck } := by
      have hpan := panicked_updateSeat (h := { h with deck := { h.deck with index := h.deck.index + 1 } })
        (f := fun state => { state with holeCards := state.holeCards ++ [h.deck.cards[h.deck.index]] }) hq
      rw [← hg, (updateSeat_table _ q _).frame, hpan]
    have hgseat : ∀ p, occupiedIn h.seats p = true → g.seat p = { h.seat p with holeCards := (g.seat p).holeCards } := by
      intro p hp
      rw [← hg]
      by_cases e : p = q
      · subst e; rw [seat_updateSeat_self (by exact hp)]
      · rw [seat_updateSeat_ne e]
    obtain ⟨hframe, hlength, hoccupied, hseat⟩ := ih (h := g) (fun p hp => by rw [hocc]; exact hl p (List.mem_cons_of_mem _ hp))
      (by rw [hgdeck]; simp only; omega)
    have hindex : g.deck.index + l.length = h.deck.index + (l.length + 1) := by rw [hgdeck]; simp only; omega
    rw [hstep]
    generalize dealHoleCards l g = k at hframe hlength hoccupied hseat
    refine ⟨?_, hlength.trans (by rw [← hg]; exact (updateSeat_table _ q _).length),
      fun p => (hoccupied p).trans (hocc p), fun p hp => ?_⟩
    · rw [hindex, hgdeck, hgframe] at hframe
      exact hframe
    · rw [hseat p (by rw [hocc]; exact hp)]
      conv_lhs => rw [hgseat p hp]

end deal

/-- The table once the cards are out and before a chip is in. -/
structure DealtIn (c : HandConfig) (smallBlind bigBlind : SeatId) (base : MultiwayHand) : Prop where
  frame : base = seated c.tableSize base.seats c.button smallBlind bigBlind c.blindValues base.initialTotal base.deck
  length : base.seats.length = c.tableSize.get
  occupied : ∀ p, occupiedIn base.seats p = (c.seatStacks.lookup p).isSome
  button : occupiedIn base.seats c.button = true
  nodup : (c.seatStacks.map (·.1)).Nodup
  positive : ∀ x ∈ c.seatStacks, 0 < x.2
  seat : ∀ p, occupiedIn base.seats p = true →
    base.seat p = { MultiwaySeatState.new (c.start p) with holeCards := (base.seat p).holeCards }
  total : base.initialTotal = (c.seatStacks.map (·.2)).sum
  fits : base.initialTotal ≤ u32Max
  deck : base.deck.index + 5 ≤ base.deck.cards.length

section build
variable {c : HandConfig} {h base table : MultiwayHand} {sb bb first : SeatId} {chips : Nat}
  {seats : List (Option MultiwaySeatState)}

/-- The steps of an accepted configuration: seats, positions, and the table once posted. -/
structure Built (c : HandConfig) (seats : List (Option MultiwaySeatState)) (chips : Nat) (sb bb first : SeatId)
    (table h : MultiwayHand) : Prop where
  blinds : c.blindValues.accepted = true
  count : 2 ≤ c.seatStacks.length
  placed : placeStacks c.tableSize c.seatStacks (List.replicate c.tableSize.get none) 0 = .ok (seats, chips)
  button : occupiedIn seats c.button = true
  positions : openingPositions c.tableSize seats c.button c.seatStacks.length = some (sb, bb, first)
  posts : postForced c.forcedPosts (c.dealtTo seats chips sb bb).postAntes.postBlinds = .ok table
  opened : h = table.openPreflop first

theorem build_built (hb : c.build = .ok h) : ∃ seats chips sb bb first table, Built c seats chips sb bb first table h := by
  simp only [HandConfig.build, withPreparedDeck] at hb
  split at hb
  · cases hb
  rename_i hblinds
  split at hb
  · cases hb
  rename_i hcount
  split at hb
  · cases hb
  rename_i seats total hplace
  split at hb
  · cases hb
  rename_i hbutton
  have hs : Seating c.tableSize c.seatStacks seats total := placeStacks_seating (seating_empty _) hplace
  have hbutton : occupiedIn seats c.button = true := by simpa using hbutton
  obtain ⟨sb, bb, first, hpos, _⟩ := openingPositions_some hs.length hbutton c.seatStacks.length
  simp only [hpos, Option.getD_some, Option.isSome_some, check_true] at hb
  split at hb
  · cases hb
  rename_i posted hposted
  exact ⟨seats, total, sb, bb, first, posted, by simpa using hblinds, by omega, hplace, hbutton, hpos, hposted,
    (Except.ok.inj hb).symm⟩

/-- What an accepted configuration deals. -/
theorem Built.dealtIn (hdeck : c.deck.Shuffled) (hb : Built c seats chips sb bb first table h) :
    DealtIn c sb bb (c.dealtTo seats chips sb bb) ∧ occupiedIn (c.dealtTo seats chips sb bb).seats sb = true ∧
      occupiedIn (c.dealtTo seats chips sb bb).seats bb = true ∧
      occupiedIn (c.dealtTo seats chips sb bb).seats first = true := by
  have hs : Seating c.tableSize c.seatStacks seats chips := placeStacks_seating (seating_empty _) hb.placed
  have hbutton := hb.button
  obtain ⟨sb', bb', first', hpos, hsb, hbb, hfirst⟩ := openingPositions_some hs.length hbutton c.seatStacks.length
  rw [hb.positions, Option.some.injEq, Prod.mk.injEq, Prod.mk.injEq] at hpos
  obtain ⟨rfl, rfl, rfl⟩ := hpos
  simp only [HandConfig.dealtTo]
  generalize hocc : clockwiseOccupied c.tableSize seats c.button = occ
  have hmem : ∀ p ∈ occ, occupiedIn seats p = true := fun p hp => by
    rw [← hocc] at hp; exact (List.mem_filter.mp hp).2
  have hlen : occ.length ≤ 9 := by
    rw [← hocc]
    refine Nat.le_trans (List.length_filter_le ..) ?_
    simpa [clockwiseFrom] using c.tableSize.le_nine
  generalize hh0 : seated c.tableSize seats c.button sb bb c.blindValues chips c.deck = h0
  have hseats0 : h0.seats = seats := by rw [← hh0]; rfl
  have hdeck0 : h0.deck = c.deck := by rw [← hh0]; rfl
  have hindex := hdeck.2
  have hcards := hdeck.length
  obtain ⟨f1, l1, o1, s1⟩ := dealHoleCards_spec (h := h0) (l := occ) (by rw [hseats0]; exact hmem)
    (by rw [hdeck0]; omega)
  generalize dealHoleCards occ h0 = h1 at *
  have hdeck1 : h1.deck = { c.deck with index := c.deck.index + occ.length } := by rw [f1, hdeck0]
  obtain ⟨f2, l2, o2, s2⟩ := dealHoleCards_spec (h := h1) (l := occ) (fun p hp => by rw [o1, hseats0]; exact hmem p hp)
    (by rw [hdeck1]; simp only; omega)
  generalize dealHoleCards occ h1 = base at *
  have hdeck2 : base.deck = { c.deck with index := c.deck.index + occ.length + occ.length } := by
    rw [f2]; simp only [hdeck1]
  have hoccb : ∀ p, occupiedIn base.seats p = occupiedIn seats p := fun p => by rw [o2, o1, hseats0]
  have hframe : base = { h0 with seats := base.seats, deck := base.deck } := by
    rw [hdeck1, f1] at f2
    rw [hdeck2]; exact f2
  have htotal : base.initialTotal = chips := by rw [hframe, ← hh0]; rfl
  refine ⟨⟨?_, ?_, fun p => ?_, (hoccb _).trans hbutton, hs.nodup, hs.positive, fun p hp => ?_, htotal.trans hs.sum,
    htotal ▸ hs.fits, ?_⟩, by rw [hoccb]; exact hsb, by rw [hoccb]; exact hbb, by rw [hoccb]; exact hfirst⟩
  · rw [htotal]
    conv_lhs => rw [hframe, ← hh0]
    rfl
  · rw [l2, l1, hseats0]; exact hs.length
  · rw [hoccb, occupiedIn, hs.seat]; simp
  · have hp2 : occupiedIn h1.seats p = true := by rw [← o2]; exact hp
    have hp0 : occupiedIn h0.seats p = true := by rw [← o1]; exact hp2
    have h0seat : h0.seat p = .new (c.start p) := by
      simp only [MultiwayHand.seat, hseats0, seatOf, hs.seat, HandConfig.start]
      rw [hseats0, occupiedIn, hs.seat] at hp0
      cases hl : c.seatStacks.lookup p with
      | none => rw [hl] at hp0; cases hp0
      | some n => rfl
    rw [s2 p hp2, s1 p hp0, h0seat]
  · rw [hdeck2]; simp only; omega

theorem DealtIn.start_le (hd : DealtIn c sb bb base) (p : SeatId) : c.start p ≤ u32Max := by
  rw [HandConfig.start, ← Ledger.credited_eq_lookup hd.nodup]
  refine Nat.le_trans ?_ hd.fits
  rw [hd.total]
  exact List.Sublist.sum_le_sum ((List.filter_sublist).map _) fun _ _ => Nat.zero_le _

theorem DealtIn.start_pos (hd : DealtIn c sb bb base) {p : SeatId} (hp : occupiedIn base.seats p = true) : 0 < c.start p := by
  rw [hd.occupied] at hp
  obtain ⟨n, hn⟩ := Option.isSome_iff_exists.mp hp
  rw [HandConfig.start, hn]
  obtain ⟨l, r, hl, _⟩ := List.lookup_eq_some_iff.mp hn
  exact hd.positive (p, n) (by rw [hl]; simp)

/-- The seats dealt in are the ones given stacks. -/
theorem DealtIn.perm (hd : DealtIn c sb bb base) : base.occupiedSeats.Perm (c.seatStacks.map (·.1)) := by
  refine (List.perm_ext_iff_of_nodup (nodup_occupiedSeats base) hd.nodup).mpr fun p => ?_
  have hlen : base.seats.length = base.tableSize.get := by rw [hd.length, hd.frame]; rfl
  rw [mem_occupiedSeats hlen, hd.occupied, List.lookup_isSome_iff, List.mem_map]
  exact exists_congr fun x => and_congr_right fun _ => by rw [beq_iff_eq, eq_comm]

/-! ## Antes, blinds and posts -/

/-- A seat's books before its first action; `dead` is what it was asked for outside a
    call, on top of the ante. -/
structure Posted (start ante dead : Nat) (st : MultiwaySeatState) : Prop where
  held : st.stack + st.handContribution = start
  street_le : st.streetContribution ≤ st.handContribution
  allIn : st.stack = 0 → st.participation = .allIn
  live : 0 < st.stack → st.participation = .live
  mark : st.lastActionWager = none
  prior_le : st.handContribution - st.streetContribution ≤ ante + dead
  anted : 0 < st.stack ∨ 0 < st.streetContribution → ante ≤ st.handContribution - st.streetContribution

section seat
variable {start ante dead : Nat} {st : MultiwaySeatState}

theorem Posted.called (hp : Posted start ante dead st) (n : Nat) : Posted start ante dead (paid st (min n st.stack)) := by
  have h1 := hp.held
  have h2 := hp.street_le
  have h3 := hp.prior_le
  refine ⟨?_, ?_, fun h => ?_, fun h => ?_, hp.mark, ?_, fun h => ?_⟩ <;> simp only [paid] at *
  · omega
  · omega
  · rw [if_pos h]
  · rw [if_neg (by omega)]; exact hp.live (by omega)
  · omega
  · have := hp.anted (by omega)
    omega

theorem Posted.dropped (hp : Posted start ante dead st) (n : Nat) : Posted start ante (dead + n)
    { paid st (min n st.stack) with streetContribution := st.streetContribution } := by
  have h1 := hp.held
  have h2 := hp.street_le
  have h3 := hp.prior_le
  refine ⟨?_, ?_, fun h => ?_, fun h => ?_, hp.mark, ?_, fun h => ?_⟩ <;> simp only [paid] at *
  · omega
  · omega
  · rw [if_pos h]
  · rw [if_neg (by omega)]; exact hp.live (by omega)
  · omega
  · have := hp.anted (by omega)
    omega

/-- A new seat asked for the ante. -/
theorem posted_new (hs : 0 < start) (cards : List Card) : Posted start ante 0
    { paid { MultiwaySeatState.new start with holeCards := cards } (min ante start) with streetContribution := 0 } := by
  refine ⟨?_, ?_, fun h => ?_, fun h => ?_, rfl, ?_, fun h => ?_⟩ <;> simp only [paid, MultiwaySeatState.new] at *
  · omega
  · omega
  · exact if_pos h
  · exact if_neg (Nat.pos_iff_ne_zero.mp h)
  · omega
  · omega

end seat

/-- The hand while posts are taken, nobody having acted. -/
structure Posting (c : HandConfig) (base : MultiwayHand) (dead : List (SeatId × Nat)) (h : MultiwayHand) : Prop where
  table : SameTable base h
  ok : h.panicked = false
  seat : ∀ p, occupiedIn base.seats p = true →
    Posted (c.start p) c.blindValues.ante (Ledger.credited dead p) (h.seat p)

section posts
variable {dead : List (SeatId × Nat)} {p : SeatId}

theorem Posting.called (hp : Posting c base dead h) (hd : DealtIn c sb bb base)
    (hocc : occupiedIn base.seats p = true) (n : Nat) :
    Posting c base dead (h.commitChips p n) := by
  have ho : occupiedIn h.seats p = true := by rw [hp.table.occupied]; exact hocc
  have hs := hp.seat p hocc
  have hfit := hd.start_le p
  refine ⟨hp.table.trans (commitChips_table h p n), ?_, fun q hq => ?_⟩
  · rw [panicked_commitChips ho n hs.street_le (by rw [hs.held]; exact hfit)]; exact hp.ok
  · by_cases e : q = p
    · subst e; rw [seat_commitChips_self ho]; exact hs.called n
    · rw [seat_commitChips_ne e]; exact hp.seat q hq

theorem Posting.dropped (hp : Posting c base dead h) (hd : DealtIn c sb bb base)
    (hocc : occupiedIn base.seats p = true) (n : Nat) :
    Posting c base (dead ++ [(p, n)]) (h.commitDeadChips p n) := by
  have ho : occupiedIn h.seats p = true := by rw [hp.table.occupied]; exact hocc
  have hs := hp.seat p hocc
  have hfit := hd.start_le p
  refine ⟨hp.table.trans (commitDeadChips_table h p n), ?_, fun q hq => ?_⟩
  · rw [panicked_commitDeadChips ho n (by rw [hs.held]; exact hfit)]; exact hp.ok
  · rw [Ledger.credited_append, Ledger.credited_cons, Ledger.credited_nil]
    by_cases e : q = p
    · subst e; rw [seat_commitDeadChips_self ho, if_pos rfl]; exact hs.dropped n
    · rw [seat_commitDeadChips_ne e, if_neg (Ne.symm e)]; exact hp.seat q hq

/-- Antes, seat by seat; `done` are the seats that have been asked. -/
theorem foldl_antes (hd : DealtIn c sb bb base) (l done : List SeatId) (hn : (done ++ l).Nodup)
    (hl : ∀ p ∈ l, occupiedIn base.seats p = true) (ht : SameTable base h) (hok : h.panicked = false)
    (hdone : ∀ p ∈ done, Posted (c.start p) c.blindValues.ante 0 (h.seat p))
    (hrest : ∀ p, p ∉ done → h.seat p = base.seat p) :
    let h' := l.foldl (fun h p => h.commitDeadChips p c.blindValues.ante) h
    SameTable base h' ∧ h'.panicked = false ∧ ∀ p ∈ done ++ l, Posted (c.start p) c.blindValues.ante 0 (h'.seat p) := by
  induction l generalizing h done with
  | nil => exact ⟨ht, hok, by simpa using hdone⟩
  | cons q l ih =>
    have hocc := hl q List.mem_cons_self
    have ho : occupiedIn h.seats q = true := by rw [ht.occupied]; exact hocc
    have hq : q ∉ done := fun hm => (List.nodup_append.mp hn).2.2 q hm q List.mem_cons_self rfl
    have hseat : h.seat q = { MultiwaySeatState.new (c.start q) with holeCards := (base.seat q).holeCards } :=
      (hrest q hq).trans (hd.seat q hocc)
    have hfit := hd.start_le q
    have hmore := ih (h := h.commitDeadChips q c.blindValues.ante) (done ++ [q]) (by rwa [List.append_assoc])
      (fun p hp => hl p (List.mem_cons_of_mem _ hp)) (ht.trans (commitDeadChips_table h q _))
      (by rw [panicked_commitDeadChips ho _ (by rw [hseat]; exact hfit)]; exact hok) (fun p hp => ?_) (fun p hp => ?_)
    · rwa [List.append_assoc] at hmore
    · rcases List.mem_append.mp hp with hp | hp
      · rw [seat_commitDeadChips_ne fun (e : p = q) => hq (e ▸ hp)]; exact hdone p hp
      · obtain rfl := List.mem_singleton.mp hp
        rw [seat_commitDeadChips_self ho, hseat]
        exact posted_new (hd.start_pos hocc) _
    · simp only [List.mem_append, List.mem_singleton, not_or] at hp
      rw [seat_commitDeadChips_ne hp.2]; exact hrest p hp.1

theorem postAntes_posting (hd : DealtIn c sb bb base) : Posting c base [] base.postAntes := by
  have hlen : base.seats.length = base.tableSize.get := by rw [hd.length, hd.frame]; rfl
  have hblinds : base.blindValues = c.blindValues := by rw [hd.frame]; rfl
  have hok : base.panicked = false := by rw [hd.frame]; rfl
  rw [postAntes, hblinds]
  split
  · obtain ⟨ht, hp, hs⟩ := foldl_antes hd base.occupiedSeats [] (h := base)
      (nodup_occupiedSeats base) (fun p hp => (mem_occupiedSeats hlen).mp hp) (SameTable.refl base) hok
      (fun _ hp => absurd hp List.not_mem_nil) (fun _ _ => rfl)
    exact ⟨ht, hp, fun p hp => hs p ((mem_occupiedSeats hlen).mpr hp)⟩
  · rename_i hz
    have hz : c.blindValues.ante = 0 := by omega
    refine ⟨SameTable.refl base, hok, fun p hp => ?_⟩
    have := @posted_new (c.start p) 0 (hd.start_pos hp) (base.seat p).holeCards
    rw [hd.seat p hp, hz]
    simpa [paid, MultiwaySeatState.new, Nat.pos_iff_ne_zero.mp (hd.start_pos hp)] using this

theorem postForced_posting (hd : DealtIn c sb bb base) {posts : List ForcedPost} (hp : Posting c base dead h) {h' : MultiwayHand}
    (hok : postForced posts h = .ok h') :
    Posting c base (dead ++ (posts.filter fun post => !post.live).map fun post => (post.seat, post.amount)) h' := by
  induction posts generalizing h dead with
  | nil =>
    simp only [postForced, Except.ok.injEq] at hok
    rw [← hok]; simpa using hp
  | cons post posts ih =>
    simp only [postForced] at hok
    split at hok
    · cases hok
    rename_i hseat
    have hlen : base.seats.length = base.tableSize.get := by rw [hd.length, hd.frame]; rfl
    have hocc : occupiedIn base.seats post.seat = true := by
      rw [hp.table.occupiedSeats] at hseat
      simp only [Bool.not_eq_true', Bool.not_eq_false, List.any_eq_true, beq_iff_eq] at hseat
      obtain ⟨p, hm, rfl⟩ := hseat
      exact (mem_occupiedSeats hlen).mp hm
    cases hlive : post.live with
    | true =>
      rw [hlive] at hok
      have := ih (hp.called hd hocc post.amount) hok
      rwa [List.filter_cons_of_neg (by simp [hlive])]
    | false =>
      rw [hlive] at hok
      have := ih (hp.dropped hd hocc post.amount) hok
      rw [List.filter_cons_of_pos (by simp [hlive]), List.map_cons]
      simpa using this

end posts

/-! ## The first wager -/

/-- The most any seat has posted towards a call. -/
def wagerPosted (h : MultiwayHand) : Nat := (h.occupiedSeats.map fun p => (h.seat p).streetContribution).foldl max 0

/-- The hand with its opening wager and its first to act. -/
def started (h : MultiwayHand) (first : SeatId) : MultiwayHand :=
  let h := { h with currentWager := h.wagerPosted }
  { h with toAct := h.firstNeedingFrom first }

/-- What a hand keeps of its configuration while it is played. -/
structure Carries (c : HandConfig) (g : MultiwayHand) : Prop where
  tableSize : g.tableSize = c.tableSize
  button : g.button = c.button
  blindValues : g.blindValues = c.blindValues
  initialTotal : g.initialTotal = (c.seatStacks.map (·.2)).sum
  occupied : ∀ p, occupiedIn g.seats p = (c.seatStacks.lookup p).isSome
  held : ∀ p, (g.seat p).stack + (g.seat p).handContribution = c.start p
  covered : c.Backed → ∃ base, Level base g.street ∧ Covered g.street

/-- The seats' books, the wager and what is fixed for the hand are the same. -/
structure SameBooks (g g' : MultiwayHand) : Prop where
  tableSize : g'.tableSize = g.tableSize
  button : g'.button = g.button
  blindValues : g'.blindValues = g.blindValues
  initialTotal : g'.initialTotal = g.initialTotal
  seats : g'.seats = g.seats
  wager : g'.currentWager = g.currentWager
  raise : g'.lastFullRaiseSize = g.lastFullRaiseSize

theorem Carries.same {g g' : MultiwayHand} (hc : Carries c g) (hs : SameBooks g g') : Carries c g' := by
  have hstreet : g'.street = g.street := by simp only [street, seat, hs.seats, hs.wager, hs.raise]
  refine ⟨hs.tableSize.trans hc.tableSize, hs.button.trans hc.button, hs.blindValues.trans hc.blindValues,
    hs.initialTotal.trans hc.initialTotal, fun p => ?_, fun p => ?_, fun hb => ?_⟩
  · rw [hs.seats]; exact hc.occupied p
  · simp only [seat, hs.seats]; exact hc.held p
  · rw [hstreet]; exact hc.covered hb

section first
variable {dead : List (SeatId × Nat)} {p : SeatId}

theorem Posting.frame (hp : Posting c base dead h) (hd : DealtIn c sb bb base) :
    h = seated c.tableSize h.seats c.button sb bb c.blindValues base.initialTotal base.deck := by
  rw [hp.table.frame, hp.ok, hd.frame]; rfl

theorem Posting.seat_cases (hp : Posting c base dead h) (p : SeatId) :
    (occupiedIn h.seats p = false ∧ h.seat p = .vacant) ∨
      (occupiedIn base.seats p = true ∧ Posted (c.start p) c.blindValues.ante (Ledger.credited dead p) (h.seat p)) := by
  cases hocc : occupiedIn base.seats p with
  | true => exact Or.inr ⟨rfl, hp.seat p hocc⟩
  | false =>
    have ho : occupiedIn h.seats p = false := by rw [hp.table.occupied]; exact hocc
    exact Or.inl ⟨ho, seatOf_vacant ho⟩

/-- Whoever is dealt in is in the hand. -/
theorem Posting.inHand (hp : Posting c base dead h) (ho : occupiedIn base.seats p = true) : h.street.InHand p := by
  have hs := hp.seat p ho
  rw [inHand_iff]
  rcases Nat.eq_zero_or_pos (h.seat p).stack with hz | hz
  · simp [MultiwaySeatState.eligibleForPot, hs.allIn hz]
  · simp [MultiwaySeatState.eligibleForPot, hs.live hz]

theorem Posting.no_fold (hp : Posting c base dead h) (p : SeatId) : h.street.status p ≠ .folded := fun hf => by
  have hpart := status_folded.mp hf
  rcases hp.seat_cases p with ⟨_, hv⟩ | ⟨_, hs⟩
  · rw [hv] at hpart; cases hpart
  · rcases Nat.eq_zero_or_pos (h.seat p).stack with hz | hz
    · rw [hs.allIn hz] at hpart; cases hpart
    · rw [hs.live hz] at hpart; cases hpart

/-- Nobody has acted, and the wager is the largest post. -/
theorem Posting.fresh (hp : Posting c base dead h) (hd : DealtIn c sb bb base) (first : SeatId) :
    Fresh c.blindValues.bigBlind (h.started first).street := by
  have hframe := hp.frame hd
  have hlen : h.seats.length = h.tableSize.get := by rw [hp.table.length, hd.length, hframe]; rfl
  have hraise : h.lastFullRaiseSize = c.blindValues.bigBlind := by rw [hframe]; rfl
  refine ⟨⟨fun p => ?_, fun hpos => ?_, fun p hl => ?_, fun p ha => ?_, fun p w _ hm => ?_, ?_, fun _ => hraise⟩,
    fun p => ?_, hraise⟩
  · show (h.seat p).streetContribution ≤ h.wagerPosted
    rcases hp.seat_cases p with ⟨_, hv⟩ | ⟨ho, _⟩
    · rw [hv]; exact Nat.zero_le _
    · refine (Vec.le_foldl_max _ 0).2 _ (List.mem_map_of_mem (f := fun p => (h.seat p).streetContribution) ?_)
      rw [mem_occupiedSeats hlen, hp.table.occupied]; exact ho
  · have hpos : 0 < h.wagerPosted := hpos
    rcases Vec.foldl_max_mem (h.occupiedSeats.map fun p => (h.seat p).streetContribution) 0 with hz | hm
    · exact absurd hz (Nat.pos_iff_ne_zero.mp hpos)
    · obtain ⟨p, hm, he⟩ := List.mem_map.mp hm
      rw [mem_occupiedSeats hlen, hp.table.occupied] at hm
      exact ⟨p, hp.inHand hm, he⟩
  · rcases hp.seat_cases p with ⟨_, hv⟩ | ⟨_, hs⟩
    · have := status_live.mp hl
      rw [show (h.started first).seat p = h.seat p from rfl, hv] at this; cases this
    · by_contra hz
      have hz : (h.seat p).stack = 0 := Nat.eq_zero_of_not_pos hz
      have := status_live.mp hl
      rw [show (h.started first).seat p = h.seat p from rfl, hs.allIn hz] at this; cases this
  · rcases hp.seat_cases p with ⟨_, hv⟩ | ⟨_, hs⟩
    · show (h.seat p).stack = 0
      rw [hv]; rfl
    · by_contra hz
      have hl : (h.seat p).participation = .live := hs.live (Nat.pos_of_ne_zero hz)
      simp only [street, show (h.started first).seat p = h.seat p from rfl, hl] at ha
      cases ha
  · rcases hp.seat_cases p with ⟨_, hv⟩ | ⟨_, hs⟩
    · simp only [street, show (h.started first).seat p = h.seat p from rfl, hv] at hm; cases hm
    · simp only [street, show (h.started first).seat p = h.seat p from rfl, hs.mark] at hm; cases hm
  · exact Nat.le_of_eq hraise.symm
  · show (h.seat p).lastActionWager = none
    rcases hp.seat_cases p with ⟨_, hv⟩ | ⟨_, hs⟩
    · rw [hv]; rfl
    · exact hs.mark

theorem Posting.held (hp : Posting c base dead h) (hd : DealtIn c sb bb base) (p : SeatId) :
    (h.seat p).stack + (h.seat p).handContribution = c.start p := by
  rcases hp.seat_cases p with ⟨ho, hv⟩ | ⟨_, hs⟩
  · rw [hp.table.occupied, hd.occupied] at ho
    have hnone : c.seatStacks.lookup p = none := by simpa using ho
    rw [hv, HandConfig.start, hnone]; rfl
  · exact hs.held

theorem Posting.occupiedSeats (hp : Posting c base dead h) (hd : DealtIn c sb bb base) :
    h.occupiedSeats.Perm (c.seatStacks.map (·.1)) := hp.table.occupiedSeats ▸ hd.perm

/-- The chips on the table are the stacks it was given. -/
theorem Posting.totalChips (hp : Posting c base dead h) (hd : DealtIn c sb bb base) : h.totalChips = base.initialTotal := by
  rw [totalChips_eq, hd.total, sumSeats]
  have hcredit : (h.occupiedSeats.map fun p => (h.seat p).stack + (h.seat p).handContribution) =
      h.occupiedSeats.map (Ledger.credited c.seatStacks) :=
    List.map_congr_left fun p _ => by rw [hp.held hd, HandConfig.start, Ledger.credited_eq_lookup hd.nodup]
  rw [hcredit]
  exact Ledger.sum_credited (nodup_occupiedSeats h) fun e he =>
    (hp.occupiedSeats hd).mem_iff.mpr (List.mem_map_of_mem he)

theorem Posting.contested (hp : Posting c base dead h) (hd : DealtIn c sb bb base) (hcount : 2 ≤ c.seatStacks.length) :
    2 ≤ h.potEligibleCount := by
  have hframe := hp.frame hd
  have hlen : h.seats.length = h.tableSize.get := by rw [hp.table.length, hd.length, hframe]; rfl
  have hall : h.occupiedSeats.filter (fun p => (h.seat p).eligibleForPot) = h.occupiedSeats := by
    refine List.filter_eq_self.mpr fun p hm => ?_
    rw [mem_occupiedSeats hlen, hp.table.occupied] at hm
    exact inHand_iff.mp (show h.street.InHand p from (hp.inHand hm))
  rw [potEligibleCount, hall, (hp.occupiedSeats hd).length_eq, List.length_map]
  exact hcount

theorem Posting.underWay (hp : Posting c base dead h) (hd : DealtIn c sb bb base) (hblinds : c.blindValues.accepted = true)
    (first : SeatId) : (h.started first).UnderWay h.wagerPosted := by
  have hframe := hp.frame hd
  have hlen : h.seats.length = h.tableSize.get := by rw [hp.table.length, hd.length, hframe]; rfl
  have hfresh := hp.fresh hd first
  have hbb : h.blindValues = c.blindValues := by rw [hframe]; rfl
  have hpos : 0 < c.blindValues.bigBlind := by
    simp only [BlindValues.accepted, Bool.and_eq_true, decide_eq_true_eq] at hblinds; omega
  have hhistory : h.actionHistory = [] := by rw [hframe]; rfl
  refine ⟨⟨hlen, fun p => ?_, fun p => ?_, fun p ho => ?_⟩, ?_, ?_, ?_, ?_, ?_, ?_, ?_, hp.ok, fun record hr => ?_,
    (h.started first).street, ?_, ?_, ?_, ?_⟩
  · rcases hp.seat_cases p with ⟨_, hv⟩ | ⟨_, hs⟩
    · show (h.seat p).streetContribution ≤ (h.seat p).handContribution
      rw [hv]; exact Nat.le_refl _
    · exact hs.street_le
  · exact (hp.held hd p).symm ▸ hd.start_le p
  · have hin : (h.started first).street.InHand p := hp.inHand (by rw [← hp.table.occupied]; exact ho)
    rcases hin with e | e <;> rw [e] <;> simp
  · exact (hp.totalChips hd).trans (congrArg (·.initialTotal) hframe).symm
  · show h.initialTotal ≤ u32Max
    rw [hframe]; exact hd.fits
  · show 0 < h.blindValues.bigBlind
    rw [hbb]; exact hpos
  · show h.phase.acceptsActions = true
    rw [hframe]; rfl
  · show h.board.length = h.phase.boardLength
    rw [hframe]; rfl
  · show h.deck.index + (5 - h.board.length) ≤ h.deck.cards.length
    rw [hframe]; exact hd.deck
  · refine ⟨?_, ?_, ?_, ?_, ?_⟩ <;> simp only [started] <;> rw [hframe] <;> rfl
  · rw [show (h.started first).actionHistory = h.actionHistory from rfl, hhistory] at hr; cases hr
  · rw [show (h.started first).blindValues = h.blindValues from rfl, hbb]; exact hfresh
  · have hphase : (h.started first).phase = .preflop := by
      rw [show (h.started first).phase = h.phase from rfl, hframe]; rfl
    rw [opening, if_pos hphase]; rfl
  · have hnone : (h.started first).turns = [] := by
      simp [turns, streetHistory, show (h.started first).actionHistory = h.actionHistory from rfl, hhistory]
    rw [hnone]; exact .nil
  · have hnone : (h.started first).streetHistory = [] := by
      simp [streetHistory, show (h.started first).actionHistory = h.actionHistory from rfl, hhistory]
    rw [hnone]; trivial

/-- Dead posts of one chip at most leave the street level. -/
theorem Posting.carries (hp : Posting c base c.deadPosts h) (hd : DealtIn c sb bb base) (first : SeatId) :
    Carries c (h.started first) := by
  have hframe := hp.frame hd
  refine ⟨?_, ?_, ?_, ?_, fun p => ?_, hp.held hd, fun hbacked =>
    ⟨c.blindValues.ante, ⟨fun p hne => ?_, fun p hor => ?_⟩, fun p hf => ?_⟩⟩
  · show h.tableSize = c.tableSize
    rw [hframe]; rfl
  · show h.button = c.button
    rw [hframe]; rfl
  · show h.blindValues = c.blindValues
    rw [hframe]; rfl
  · show h.initialTotal = _
    rw [hframe]; exact hd.total
  · show occupiedIn h.seats p = _
    rw [hp.table.occupied]; exact hd.occupied p
  · show (h.seat p).handContribution - (h.seat p).streetContribution ≤ c.blindValues.ante + 1
    rcases hp.seat_cases p with ⟨_, hv⟩ | ⟨_, hs⟩
    · rw [hv]; exact Nat.zero_le _
    · have h1 := hs.prior_le
      have h2 := hbacked p
      omega
  · rcases hp.seat_cases p with ⟨_, hv⟩ | ⟨_, hs⟩
    · simp only [street, show (h.started first).seat p = h.seat p from rfl, hv, MultiwaySeatState.vacant] at hor
      rcases hor with e | e <;> cases e
    · refine hs.anted ?_
      rcases hor with e | e
      · exact Or.inl ((hp.fresh hd first).sound.live_stack p e)
      · exact Or.inr e
  · exact absurd hf (hp.no_fold p)

end first

/-! ## The constructor -/

section paced
variable {posted : Nat} {progress : ShowdownProgress}

theorem Playing.paced (hp : h.Playing posted) (paced : Bool) : Playing posted { h with pacedShowdown := paced } :=
  ⟨⟨⟨hp.booked.1, hp.booked.2, hp.booked.3, hp.booked.4⟩, hp.total, hp.fits, hp.blind, hp.accepts, hp.board, hp.deck,
    ⟨hp.quiet.1, hp.quiet.2, hp.quiet.3, hp.quiet.4, hp.quiet.5⟩, hp.ok, hp.past, hp.play⟩, hp.contested, hp.isOpen, hp.toAct⟩

theorem Showing.paced (hs : h.Showing progress) (paced : Bool) : Showing { h with pacedShowdown := paced } progress :=
  ⟨⟨⟨⟨hs.contest.balanced.booked.1, hs.contest.balanced.booked.2, hs.contest.balanced.booked.3, hs.contest.balanced.booked.4⟩,
      hs.contest.balanced.total, hs.contest.balanced.fits, hs.contest.balanced.ok⟩, hs.contest.sound, hs.contest.accepts,
      hs.contest.waiting, hs.contest.contested, hs.contest.awards, hs.contest.nodup, hs.contest.mem,
      hs.contest.ordered, hs.contest.flag, hs.contest.evaluations, hs.contest.deck, hs.contest.board, hs.contest.river⟩,
    hs.tabled.current, hs.tabled.cursor, hs.tabled.shown, hs.tabled.mucked, hs.tabled.split, hs.tabled.allIn,
    fun m hm => ⟨(hs.tabled.justified m hm).1, ⟨(hs.tabled.justified m hm).2.1, (hs.tabled.justified m hm).2.2⟩⟩⟩

end paced

/-- The table once everybody has posted. -/
theorem Built.posting (hdeck : c.deck.Shuffled) (hb : Built c seats chips sb bb first table h) :
    Posting c (c.dealtTo seats chips sb bb) c.deadPosts table := by
  obtain ⟨hd, hsb, hbb, _⟩ := hb.dealtIn hdeck
  have hposts := hb.posts
  generalize c.dealtTo seats chips sb bb = base at *
  have hante := postAntes_posting hd
  have hframe := hante.frame hd
  have hsmall : base.postAntes.smallBlind = sb := by rw [hframe]; rfl
  have hbig : base.postAntes.bigBlind = bb := by rw [hframe]; rfl
  have hblind : Posting c base [] base.postAntes.postBlinds := by
    rw [postBlinds, hsmall, hbig]
    exact (hante.called hd hsb _).called hd hbb _
  have := postForced_posting hd hblind hposts
  rwa [List.nil_append] at this

/-- What opening the table leaves: a street to play, or, with one player at most able to
    act, a showdown. -/
theorem Built.opens (hdeck : c.deck.Shuffled) (hb : Built c seats chips sb bb first table h) :
    ((table.started first).bettingRoundComplete = false ∧ h = { table.started first with pacedShowdown := false }) ∨
      ((table.started first).bettingLocked = true ∧ (∃ progress, h.Showing progress) ∧ h = { table.started first with
        toAct := none
        showdownEvaluations := h.showdownEvaluations
        revealedHands := h.revealedHands
        showdownProgress := h.showdownProgress
        pacedShowdown := false }) := by
  have hd := (hb.dealtIn hdeck).1
  have hpost := hb.posting hdeck
  obtain ⟨hblinds, hcount, _, _, _, _, rfl⟩ := hb
  generalize c.dealtTo seats chips sb bb = base at *
  have hu : (table.started first).UnderWay (table.started first).currentWager := hpost.underWay hd hblinds first
  have hpframe := hpost.frame hd
  have htwo : 2 ≤ (table.started first).potEligibleCount := hpost.contested hd hcount
  have hlen := hu.booked.length
  have hunmarked := (hpost.fresh hd first).unmarked
  have hfacts : (table.started first).phase = .preflop ∧ (table.started first).pacedShowdown = true := by
    refine ⟨?_, ?_⟩ <;> simp only [started] <;> rw [hpframe] <;> rfl
  have hopen : table.openPreflop first =
      { (table.started first).advanceAutomaticallyIfNeeded with pacedShowdown := false } := rfl
  rw [hopen, advanceAutomaticallyIfNeeded, hu.accepts, Bool.true_and]
  generalize table.started first = g at *
  by_cases hdone : g.bettingRoundComplete = true
  · rw [if_pos hdone, advanceStreet_eq hu htwo]
    by_cases hend : g.phase = .river ∨ (g.bettingLocked = true ∧ g.anyAllIn = true)
    · rw [if_pos hend]
      have hlocked : g.bettingLocked = true := by
        rcases hend with hriver | ⟨hlocked, _⟩
        · rw [hfacts.1] at hriver; cases hriver
        · exact hlocked
      rcases hu.begins htwo hend with ⟨_, progress, hs, he⟩ | ⟨hp, _⟩
      · obtain ⟨_, _, _, hf⟩ := hu.opens htwo hend
        rw [he]
        refine Or.inr ⟨hlocked, ⟨progress, hs.paced false⟩, ?_⟩
        conv_lhs => rw [hf]
      · rw [hfacts.2] at hp; cases hp
    · -- nobody has acted, so two who can act leave the round open
      have hact := two_actors hu htwo fun e => hend (Or.inr e)
      rcases (bettingRoundComplete_iff hlen).mp hdone with hnil | ⟨p, hone, _⟩ | hall
      · rw [hnil] at hact; cases hact
      · rw [hone] at hact; simp at hact
      · obtain ⟨p, hp⟩ := List.exists_mem_of_length_pos (show 0 < g.actors.length by omega)
        exact absurd (hunmarked p) (hall p hp).1
  · rw [if_neg hdone]
    exact Or.inl ⟨by simpa using hdone, rfl⟩

theorem Built.cases (hdeck : c.deck.Shuffled) (hb : Built c seats chips sb bb first table h) :
    Carries c h ∧ h.actionHistory = [] ∧ h.pacedShowdown = false ∧
      (((table.started first).bettingRoundComplete = false ∧ h.Playing h.currentWager) ∨
        ∃ progress, h.Showing progress ∧ Covered h.street) := by
  have hopens := hb.opens hdeck
  obtain ⟨hd, _, _, hfirst⟩ := hb.dealtIn hdeck
  have hpost := hb.posting hdeck
  obtain ⟨hblinds, hcount, _, _, _, _, _⟩ := hb
  generalize c.dealtTo seats chips sb bb = base at *
  have hu : (table.started first).UnderWay (table.started first).currentWager := hpost.underWay hd hblinds first
  have hcarries := hpost.carries hd first
  have hlen := hu.booked.length
  have hnobody : Covered (table.started first).street := fun p hf => absurd hf (hpost.no_fold p)
  have hhistory : (table.started first).actionHistory = [] := by
    simp only [started]
    rw [hpost.frame hd]
    rfl
  rcases hopens with ⟨hdone, rfl⟩ | ⟨_, ⟨progress, hs⟩, hframe⟩
  · have hfirst' : occupiedIn (table.started first).seats first = true := (hpost.table.occupied first).trans hfirst
    obtain ⟨q, hq⟩ := exists_needing hlen hdone
    obtain ⟨r, hr, hrn⟩ := firstNeedingFrom_isSome hlen (lt_of_occupied hlen hfirst') hq
    exact ⟨hcarries.same ⟨rfl, rfl, rfl, rfl, rfl, rfl, rfl⟩, hhistory, rfl,
      Or.inl ⟨hdone, Playing.paced ⟨hu, hpost.contested hd hcount, hdone, r, hr, hrn⟩ false⟩⟩
  · have hsame : SameBooks (table.started first) h := by
      refine ⟨?_, ?_, ?_, ?_, ?_, ?_, ?_⟩ <;> rw [hframe]
    have hstreet : h.street = (table.started first).street := by
      rw [hframe]
      rfl
    refine ⟨hcarries.same hsame, ?_, ?_, Or.inr ⟨progress, hs, hstreet ▸ hnobody⟩⟩
    · rw [hframe]; exact hhistory
    · rw [hframe]

/-- The table a configuration deals: the betting is open, or the posts have put all but
    one player all-in and the showdown waits. -/
theorem build_cases (hdeck : c.deck.Shuffled) (hb : c.build = .ok h) :
    Carries c h ∧ h.actionHistory = [] ∧ h.pacedShowdown = false ∧
      (h.Playing h.currentWager ∨ ∃ progress, h.Showing progress ∧ Covered h.street) := by
  obtain ⟨_, _, _, _, _, _, hbuilt⟩ := build_built hb
  obtain ⟨h1, h2, h3, h4⟩ := hbuilt.cases hdeck
  exact ⟨h1, h2, h3, h4.imp And.right id⟩

end build

end MultiwayHand

end OpenFelt
