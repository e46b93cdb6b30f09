/-
  OpenFelt.Game.Positions — the button, the blinds and the first to act.

  `begin_hand` finds them among the seats it deals in (`TableSeats::positions`), the hand
  it starts finds them again among its occupied seats (`with_prepared_deck`).

  Proved, of every run:
  - `openingPositions_eq`: from one roster both find the same blinds and the same first seat.
  - `Built.plays`: the first to act is the first seat after the big blind that can.
  - `run_positions_agree`: this holds of each hand begun, and the button goes from hand to
    hand to the next seat dealt in.
-/

import OpenFelt.Game.Debts

namespace OpenFelt

open MultiwayHand

/-- The hand that the call begins. -/
def LifecycleOp.begun (op : LifecycleOp) (t : TableLifecycle) : Option HandStart :=
  match op with
  | beginHand => t.beginHand.1.toOption
  | _ => none

namespace MultiwayHand

/-- The first seat clockwise after the big blind that can act. -/
def firstAble (h : MultiwayHand) : Option SeatId :=
  (clockwiseFrom h.tableSize h.bigBlind 1 h.tableSize.get).find? fun p => (h.seat p).canAct

/-- The hand has these positions. -/
structure Plays (positions : HandPositions) (players : Nat) (h : MultiwayHand) : Prop where
  button : h.button = positions.button
  smallBlind : h.smallBlind = positions.smallBlind
  bigBlind : h.bigBlind = positions.bigBlind
  /-- Nobody is to act once the blinds leave one player at most who can. -/
  first : h.toAct = h.firstAble ∨ h.toAct = none ∧ h.bettingLocked = true
  headsUp : players = 2 → (h.seat h.button).canAct = true → h.firstAble = some h.button

end MultiwayHand

namespace TableLifecycle

/-- The hands that a run begins. -/
def hands (t : TableLifecycle) : List LifecycleOp → List HandStart
  | [] => []
  | op :: ops => (op.begun t).toList ++ (op.apply t).hands ops

/-- The button of the last hand of a run, or the one the table was restored with. -/
def buttonBefore (t : TableLifecycle) (ops : List LifecycleOp) : Option SeatId :=
  ((t.hands ops).getLast?.map (·.button)).or t.lastButton

/-- `begin_hand` gives `start` with these positions, and they are those of the hand. -/
structure Positioned (t : TableLifecycle) (start : HandStart) (positions : HandPositions) : Prop where
  found : t.promoteNaturalBigBlindWaiter.seats.positions start.button = .ok positions
  posts : start.forcedPosts =
    forcedPosts positions.smallBlind positions.bigBlind t.promoteNaturalBigBlindWaiter.dealtObligations
  played : ∀ blinds deck h, deck.Shuffled → (start.intoHand t.tableSize blinds deck).build = .ok h →
    h.Plays positions start.seatStacks.length

/-- The button is the nearest seat of the hand after the button before, the lowest one in the first hand. -/
def Rotates (t : TableLifecycle) (start : HandStart) (before : Option SeatId) : Prop :=
  (match before with
    | some last => clockwiseFrom t.tableSize last 1 t.tableSize.get
    | none => t.tableSize.seats).find? (fun p => (start.seatStacks.lookup p).isSome) = some start.button

end TableLifecycle

/-! ## Positions among the eligible seats -/

namespace TableSeats

variable {s : TableSeats} {b p : SeatId} {positions : HandPositions}

/-- Of two eligible seats each is the next one after the other. -/
theorem nextForHand_two (htwo : s.eligibleCount = 2) (h : s.nextForHand b = some p) (hb : s.eligible b = true) :
    s.nextForHand p = some b := by
  obtain ⟨hp, hne⟩ := nextForHand_eligible h
  obtain ⟨q, hq⟩ := nextForHand_isSome (Nat.le_of_eq htwo.symm) (inside_of_eligible hp)
  obtain ⟨hqe, hqne⟩ := nextForHand_eligible hq
  rw [eligibleCount_eq] at htwo
  have hnodup : (s.tableSize.seats.filter s.eligible).Nodup := s.tableSize.nodup_seats.filter _
  have hmem : ∀ r, s.eligible r = true → r ∈ s.tableSize.seats.filter s.eligible :=
    fun r hr => List.mem_filter.mpr ⟨mem_seats_of_eligible hr, hr⟩
  have hbm := hmem b hb
  have hpm := hmem p hp
  have hqm := hmem q hqe
  obtain ⟨x, y, hxy⟩ := List.length_eq_two.mp htwo
  rw [hxy] at hbm hpm hqm
  simp only [List.mem_cons, List.not_mem_nil, or_false] at hbm hpm hqm
  grind

/-- The first to act before the flop is the seat after the big blind, heads-up the button too. -/
theorem positions_spec (hb : s.eligible b = true) (hcount : 2 ≤ s.eligibleCount) (h : s.positions b = .ok positions) :
    positions.button = b ∧ s.nextForHand positions.bigBlind = some positions.firstPreflop ∧
      (if s.eligibleCount = 2 then
        positions.smallBlind = b ∧ positions.firstPreflop = b ∧ s.nextForHand b = some positions.bigBlind
      else s.nextForHand b = some positions.smallBlind ∧ s.nextForHand positions.smallBlind = some positions.bigBlind) := by
  rcases positions_ok hb hcount with ⟨htwo, bigBlind, hnext, hpos⟩ |
    ⟨hmany, smallBlind, bigBlind, first, hnext, hsecond, hthird, hpos⟩
  · rw [hpos] at h
    cases h
    rw [if_pos htwo]
    exact ⟨rfl, nextForHand_two htwo hnext hb, rfl, rfl, hnext⟩
  · rw [hpos] at h
    cases h
    rw [if_neg (by omega)]
    exact ⟨rfl, hthird, hnext, hsecond⟩

end TableSeats

namespace MultiwayHand

variable {s : TableSeats} {positions : HandPositions} {seats : List (Option MultiwaySeatState)} {b p q : SeatId}

theorem nextOccupied_eq (hocc : ∀ p, occupiedIn seats p = s.eligible p) (h : s.nextForHand p = some q) :
    nextOccupied s.tableSize seats p = some q := by
  rw [nextOccupied, funext hocc]
  exact find_turn (nextEligible_some h).1 h

/-- Among the same seats the hand finds the positions the table finds. -/
theorem openingPositions_eq (hocc : ∀ p, occupiedIn seats p = s.eligible p) (hb : s.eligible b = true)
    (hcount : 2 ≤ s.eligibleCount) (h : s.positions b = .ok positions) :
    openingPositions s.tableSize seats b s.eligibleCount =
      some (positions.smallBlind, positions.bigBlind, positions.firstPreflop) := by
  obtain ⟨_, hfirst, hblinds⟩ := TableSeats.positions_spec hb hcount h
  unfold openingPositions
  split at hblinds
  · rename_i htwo
    obtain ⟨hsmall, hbutton, hbig⟩ := hblinds
    rw [if_pos htwo, nextOccupied_eq hocc hbig, hsmall, hbutton]
    rfl
  · rename_i hmany
    obtain ⟨hsmall, hbig⟩ := hblinds
    simp only [if_neg hmany, nextOccupied_eq hocc hsmall, nextOccupied_eq hocc hbig, nextOccupied_eq hocc hfirst,
      Option.bind_eq_bind, Option.bind_some, Option.pure_def]

/-! ## The first to act -/

section first
variable {c : HandConfig} {h base table : MultiwayHand} {sb bb first : SeatId} {chips : Nat}

theorem firstNeedingFrom_fresh {least : Nat} (hf : Betting.Fresh least h.street)
    (hnext : nextOccupied h.tableSize h.seats h.bigBlind = some first) : h.firstNeedingFrom first = h.firstAble := by
  rw [firstNeedingFrom, asked_fresh hf]
  exact find_clockwise_from hnext fun p => occupied_of_canAct

/-- The seats of the hand are the seats given stacks. -/
theorem Built.occupied (hb : Built c seats chips sb bb first table h) (p : SeatId) :
    occupiedIn seats p = (c.seatStacks.lookup p).isSome := by
  have hs : Seating c.tableSize c.seatStacks seats chips := placeStacks_seating (seating_empty _) hb.placed
  rw [occupiedIn, hs.seat, Option.isSome_map]

theorem firstAble_here (hin : h.bigBlind.val < h.tableSize.get) (hnext : nextOccupied h.tableSize h.seats h.bigBlind = some first)
    (hable : (h.seat first).canAct = true) : h.firstAble = some first := by
  have hlt := (find_clockwise hin hnext).1
  rw [firstAble, ← find_clockwise_from hnext fun p => occupied_of_canAct]
  obtain ⟨n, hn⟩ := Nat.exists_eq_succ_of_ne_zero (Nat.pos_iff_ne_zero.mp h.tableSize.pos)
  have hhere : seatWrapped h.tableSize first 0 = first := Fin.ext (Nat.mod_eq_of_lt hlt)
  rw [clockwiseFrom, hn, List.range'_succ, List.map_cons, hhere, List.find?_cons, hable]

theorem Built.plays (hdeck : c.deck.Shuffled) (hb : Built c seats chips sb bb first table h)
    (hin : bb.val < c.tableSize.get) (hnext : nextOccupied c.tableSize seats bb = some first) :
    h.button = c.button ∧ h.smallBlind = sb ∧ h.bigBlind = bb ∧
      (h.toAct = h.firstAble ∨ h.toAct = none ∧ h.bettingLocked = true) ∧
      ((h.seat first).canAct = true → h.firstAble = some first) := by
  have hd := (hb.dealtIn hdeck).1
  have hpost := hb.posting hdeck
  have hframe := hpost.frame hd
  have hfresh := hpost.fresh hd first
  have hocc : occupiedIn (table.started first).seats = occupiedIn seats := by
    funext p
    exact (hpost.table.occupied p).trans ((hd.occupied p).trans (hb.occupied p).symm)
  have hbutton : (table.started first).button = c.button := congrArg (·.button) hframe
  have hsmall : (table.started first).smallBlind = sb := congrArg (·.smallBlind) hframe
  have hbig : (table.started first).bigBlind = bb := congrArg (·.bigBlind) hframe
  have hsize : (table.started first).tableSize = c.tableSize := congrArg (·.tableSize) hframe
  have hnext' : nextOccupied (table.started first).tableSize (table.started first).seats (table.started first).bigBlind =
      some first := by
    rw [nextOccupied, hocc, hsize, hbig]
    exact hnext
  have hable := @firstAble_here (table.started first) first (by rw [hbig, hsize]; exact hin) hnext'
  have hact : (table.started first).toAct = (table.started first).firstAble := firstNeedingFrom_fresh hfresh hnext'
  rcases hb.opens hdeck with ⟨_, rfl⟩ | ⟨hlocked, _, hopened⟩
  · exact ⟨hbutton, hsmall, hbig, Or.inl hact, hable⟩
  · refine ⟨?_, ?_, ?_, Or.inr ⟨?_, ?_⟩, ?_⟩ <;> rw [hopened]
    · exact hbutton
    · exact hsmall
    · exact hbig
    · exact hlocked
    · exact hable

end first

end MultiwayHand

/-! ## The run -/

namespace TableLifecycle

variable {t : TableLifecycle} {start : HandStart}

/-- The last button is that of the last hand. -/
theorem lastButton_apply (t : TableLifecycle) (op : LifecycleOp) :
    (op.apply t).lastButton = ((op.begun t).map (·.button)).or t.lastButton := by
  by_cases hop : op = .beginHand
  · subst hop
    rw [LifecycleOp.apply, LifecycleOp.begun]
    rcases t.beginHand_cases with ⟨_, _, he⟩ | ⟨_, _, ⟨_, he⟩ | ⟨_, he⟩⟩
    · rw [he]
      rfl
    · rw [he, promote_frame]
      rfl
    · rw [he]
      rfl
  · have hnone : op.begun t = none := by
      cases op with
      | beginHand => exact absurd rfl hop
      | _ => rfl
    rcases (t.apply_moves op).button with ⟨_, hsame | ⟨hbegin, _⟩⟩
    · rw [hnone, hsame]
      rfl
    · exact absurd hbegin hop

theorem lastButton_run (t : TableLifecycle) (ops : List LifecycleOp) : (t.run ops).lastButton = t.buttonBefore ops := by
  induction ops generalizing t with
  | nil => rfl
  | cons op ops ih =>
    rw [show t.run (op :: ops) = (op.apply t).run ops from rfl, ih, buttonBefore, buttonBefore, hands, lastButton_apply]
    cases op.begun t with
    | none => rfl
    | some start =>
      cases hlast : ((op.apply t).hands ops).getLast? with
      | none => simp [List.getLast?_cons, hlast]
      | some last => simp [List.getLast?_cons, hlast]

theorem lookup_dealtStacks (t : TableLifecycle) (p : SeatId) : (t.dealtStacks.lookup p).isSome = t.seats.eligible p := by
  have hlookup := t.seats.lookup_occupied (·.eligibleForNextHand) (·.stack) p
  rw [show t.dealtStacks.lookup p = _ from hlookup, Option.isSome_map, TableSeats.eligible]
  cases t.seats.seat p with
  | none => rfl
  | some st => cases he : st.eligibleForNextHand <;> simp [he]

/-- The positions of the posts are those of the hand. -/
theorem Ring.positioned (hr : t.Ring) (hbegin : t.beginHand.1 = .ok start) : ∃ positions, t.Positioned start positions := by
  obtain ⟨hcount, rfl, _⟩ := beginHand_started hbegin
  have hring := hr.promote
  have htable : t.promoteNaturalBigBlindWaiter.tableSize = t.tableSize := by rw [promote_frame]
  obtain ⟨_, hbutton, hfound⟩ := hring.beginHand_positions hcount
  generalize hk : t.promoteNaturalBigBlindWaiter = k at *
  obtain ⟨hsame, hfirst, hblinds⟩ := TableSeats.positions_spec hbutton hcount hfound
  refine ⟨k.blindsFrom k.handStart.button, by rw [hk]; exact hfound, by rw [hk]; rfl, fun blinds deck h hdeck hb => ?_⟩
  obtain ⟨seats, chips, sb, bb, first, table, hbuilt⟩ := build_built hb
  have hocc : ∀ p, occupiedIn seats p = k.seats.eligible p := fun p => (hbuilt.occupied p).trans (k.lookup_dealtStacks p)
  have hlength : k.handStart.seatStacks.length = k.seats.eligibleCount := List.length_map ..
  have hsize : k.seats.tableSize = t.tableSize := hring.size.trans htable
  have hopening := openingPositions_eq hocc hbutton hcount hfound
  have hgiven := hbuilt.positions
  rw [HandStart.intoHand, ← hsize, hlength, hopening, Option.some.injEq, Prod.mk.injEq, Prod.mk.injEq] at hgiven
  obtain ⟨rfl, rfl, rfl⟩ := hgiven
  obtain ⟨h1, h2, h3, h4, h5⟩ := hbuilt.plays hdeck
    (by rw [HandStart.intoHand, ← hsize]; exact (nextEligible_some hfirst).1)
    (by rw [HandStart.intoHand, ← hsize]; exact nextOccupied_eq hocc hfirst)
  refine ⟨h1.trans hsame.symm, h2, h3, h4, fun htwo => ?_⟩
  rw [hlength] at htwo
  rw [if_pos htwo] at hblinds
  rw [hblinds.2.1] at h5
  rw [h1]
  exact h5

/-- The button goes to the next seat of the hand. -/
theorem Ring.rotates (hr : t.Ring) (hbegin : t.beginHand.1 = .ok start) : t.Rotates start t.lastButton := by
  obtain ⟨hcount, rfl, _⟩ := beginHand_started hbegin
  have hring := hr.promote
  have htable : t.promoteNaturalBigBlindWaiter.tableSize = t.tableSize := by rw [promote_frame]
  have hlast : t.promoteNaturalBigBlindWaiter.lastButton = t.lastButton := by rw [promote_frame]
  have hnext := (hring.beginHand_positions hcount).1
  generalize t.promoteNaturalBigBlindWaiter = k at *
  have hdealt : (fun p => (k.handStart.seatStacks.lookup p).isSome) = k.seats.eligible := funext k.lookup_dealtStacks
  unfold Rotates
  unfold nextButton at hnext
  rw [hdealt, ← htable, ← hlast]
  cases hbefore : k.lastButton with
  | none =>
    rw [hbefore] at hnext
    exact hnext
  | some last =>
    rw [hbefore] at hnext
    dsimp only at hnext ⊢
    rw [← hring.size]
    exact find_turn (nextEligible_some hnext).1 hnext

/-- Whatever is called on a table, new or restored, the positions `begin_hand` finds are those of the hand it
    starts, and the button goes round. -/
theorem run_positions_agree (hs : t.Starts) (ops : List LifecycleOp) (start : HandStart)
    (hbegin : (t.run ops).beginHand.1 = .ok start) :
    (∃ positions, (t.run ops).Positioned start positions) ∧ (t.run ops).Rotates start (t.buttonBefore ops) := by
  have hring := hs.ring.run ops
  rw [← lastButton_run]
  exact ⟨hring.positioned hbegin, hring.rotates hbegin⟩

/-- Three players and a hand played. -/
def secondHand : List LifecycleOp := [.join ⟨1⟩ 0 100, .join ⟨2⟩ 1 100, .join ⟨3⟩ 2 100, .beginHand,
  .completeHand [(0, 100), (1, 100), (2, 100)]]

theorem run_positions_agree_second : (∃ positions, ((new ⟨3, by decide, by decide⟩).run secondHand).Positioned
      ⟨2, 1, [(0, 100), (1, 100), (2, 100)], []⟩ positions) ∧
    ((new ⟨3, by decide, by decide⟩).run secondHand).Rotates ⟨2, 1, [(0, 100), (1, 100), (2, 100)], []⟩
      ((new ⟨3, by decide, by decide⟩).buttonBefore secondHand) :=
  run_positions_agree (.new _) secondHand _ (by decide +kernel)

example : (new ⟨3, by decide, by decide⟩).buttonBefore secondHand = some 0 := by decide +kernel

end TableLifecycle

end OpenFelt
