/-
  OpenFelt.Game.FullTable — hands dealt to every seat of a table, with nothing to post but
  the blinds.

  Which of these configurations the constructor accepts, and which of them leave the
  betting open: all of a table of three or more, and a table of two where both players
  have more than the small blind.
-/

import OpenFelt.Game.Unpaced

namespace OpenFelt

open Betting

theorem TableSize.length_seats (size : TableSize) : size.seats.length = size.get := by simp [TableSize.seats]

/-- Distinct seats of the table with chips that fit together are dealt in, when nobody owes a post. -/
theorem HandConfig.builds_of_fits {c : HandConfig} (hblinds : c.blindValues.accepted = true) (hforced : c.forcedPosts = [])
    (hcount : 2 ≤ c.seatStacks.length) (hnodup : (c.seatStacks.map (·.1)).Nodup)
    (hinside : ∀ entry ∈ c.seatStacks, entry.1.val < c.tableSize.get) (hpositive : ∀ entry ∈ c.seatStacks, 0 < entry.2)
    (hfits : (c.seatStacks.map (·.2)).sum ≤ u32Max) (hbutton : c.button ∈ c.seatStacks.map (·.1)) : ∃ h, c.build = .ok h := by
  obtain ⟨seats, total, hplaced⟩ := MultiwayHand.placeStacks_ok (MultiwayHand.seating_empty c.tableSize)
    (by rwa [List.nil_append]) hinside hpositive (by rwa [Nat.zero_add])
  have hs := MultiwayHand.placeStacks_seating (MultiwayHand.seating_empty _) hplaced
  have hocc : occupiedIn seats c.button = true := by
    rw [occupiedIn, hs.seat, List.nil_append, Option.isSome_map]
    exact List.lookup_isSome_iff.mpr (by simpa using hbutton)
  unfold HandConfig.build MultiwayHand.withPreparedDeck
  simp only [hblinds, Bool.not_true, Bool.false_eq_true, if_false, Nat.not_lt.mpr hcount, hplaced, hocc, hforced,
    MultiwayHand.postForced]
  exact ⟨_, rfl⟩

/-- Every seat has a stack, nobody owes a post and there is no ante. -/
structure HandConfig.Full (c : HandConfig) (stack : SeatId → Nat) : Prop where
  seatStacks : c.seatStacks = c.tableSize.seats.map fun p => (p, stack p)
  forcedPosts : c.forcedPosts = []
  ante : c.blindValues.ante = 0

namespace HandConfig.Full

variable {c : HandConfig} {stack : SeatId → Nat} {p : SeatId}

theorem places (hf : c.Full stack) : c.seatStacks.map (·.1) = c.tableSize.seats := by
  rw [hf.seatStacks, List.map_map]
  exact List.map_id _

theorem chips (hf : c.Full stack) : c.seatStacks.map (·.2) = c.tableSize.seats.map stack := by
  rw [hf.seatStacks, List.map_map]
  rfl

theorem count (hf : c.Full stack) : c.seatStacks.length = c.tableSize.get := by
  rw [hf.seatStacks, List.length_map, TableSize.length_seats]

theorem lookup (hf : c.Full stack) (hp : p.val < c.tableSize.get) : c.seatStacks.lookup p = some (stack p) := by
  have hmem := c.tableSize.mem_seats.mpr hp
  rw [hf.seatStacks]
  generalize c.tableSize.seats = seats at hmem
  induction seats with
  | nil => cases hmem
  | cons q rest ih =>
    rw [List.map_cons, List.lookup_cons]
    by_cases hq : p = q
    · simp [hq]
    · have hne : (p == q) = false := by simpa using hq
      rw [hne]
      exact ih ((List.mem_cons.mp hmem).resolve_left hq)

theorem start (hf : c.Full stack) (hp : p.val < c.tableSize.get) : c.start p = stack p := by
  rw [HandConfig.start, hf.lookup hp]
  rfl

theorem lookup_none (hf : c.Full stack) (hp : ¬ p.val < c.tableSize.get) : c.seatStacks.lookup p = none := by
  refine List.lookup_eq_none_iff.mpr fun entry hentry => ?_
  have hmem := List.mem_map_of_mem (f := (·.1)) hentry
  rw [hf.places, TableSize.mem_seats] at hmem
  have hne : p ≠ entry.1 := by
    intro e
    exact hp (e ▸ hmem)
  simpa using hne

theorem seated (hf : c.Full stack) (p : SeatId) : (c.seatStacks.lookup p).isSome = decide (p.val < c.tableSize.get) := by
  by_cases hp : p.val < c.tableSize.get
  · rw [hf.lookup hp]
    simpa using hp
  · rw [hf.lookup_none hp]
    simpa using hp

theorem backed (hf : c.Full stack) : c.Backed := by
  intro p
  simp [HandConfig.deadPosts, hf.forcedPosts, Ledger.credited]

/-- The stacks are placed just when they are positive and fit together. -/
theorem builds (hf : c.Full stack) (hblinds : c.blindValues.accepted = true) (hbutton : c.button.val < c.tableSize.get)
    (hpositive : ∀ p ∈ c.tableSize.seats, 0 < stack p) (hfits : (c.tableSize.seats.map stack).sum ≤ u32Max) :
    ∃ h, c.build = .ok h := by
  refine builds_of_fits hblinds hf.forcedPosts (hf.count ▸ c.tableSize.two_le) (hf.places ▸ c.tableSize.nodup_seats)
    (fun entry hentry => ?_) (fun entry hentry => ?_) (hf.chips ▸ hfits) (hf.places ▸ c.tableSize.mem_seats.mpr hbutton)
  · have hmem := List.mem_map_of_mem (f := (·.1)) hentry
    rw [hf.places] at hmem
    exact c.tableSize.mem_seats.mp hmem
  · rw [hf.seatStacks] at hentry
    obtain ⟨p, hp, rfl⟩ := List.mem_map.mp hentry
    exact hpositive p hp

/-- A refusal is of the button or of the chips. -/
theorem refused {error : MultiwayConfigError} (hf : c.Full stack) (hblinds : c.blindValues.accepted = true)
    (hpositive : ∀ p ∈ c.tableSize.seats, 0 < stack p) (herror : c.build = .error error) :
    ¬ (c.button.val < c.tableSize.get ∧ (c.tableSize.seats.map stack).sum ≤ u32Max) := by
  intro ⟨hbutton, hfits⟩
  obtain ⟨h, hok⟩ := hf.builds hblinds hbutton hpositive hfits
  rw [herror] at hok
  cases hok

end HandConfig.Full

namespace MultiwayHand

section opens
variable {c : HandConfig} {h table : MultiwayHand} {stack : SeatId → Nat} {sb bb first : SeatId} {chips : Nat}
  {seats : List (Option MultiwaySeatState)} {p : SeatId}

theorem meetPost_live (left : Nat × Nat) (p : SeatId) (n : Nat) :
    meetPost left ⟨p, n, true⟩ = (left.1 - min n left.1, left.2 + min n left.1) := rfl

/-- With no ante and no other posts a seat has put in what the blinds ask of it. -/
theorem Built.posted_eq (hf : c.Full stack) (hb : Built c seats chips sb bb first table h) (hp : p.val < c.tableSize.get) :
    c.posted p = (([⟨sb, c.blindValues.smallBlind, true⟩, ⟨bb, c.blindValues.bigBlind, true⟩] : List ForcedPost).filter
      (·.seat = p)).foldl meetPost (stack p, 0) := by
  have hposts : c.blindPosts = [⟨sb, c.blindValues.smallBlind, true⟩, ⟨bb, c.blindValues.bigBlind, true⟩] := by
    simp only [HandConfig.blindPosts, HandConfig.positions, hb.placed, hb.positions, Option.getD_some, hf.forcedPosts]
  have hante : meetPost (c.start p, 0) ⟨p, c.blindValues.ante, false⟩ = (stack p, 0) := by
    rw [hf.ante, hf.start hp]
    simp [meetPost]
  rw [HandConfig.posted, hposts, hante]

/-- The big blind is in before a seat with no blind has put in anything. -/
theorem Built.big_leads (hf : c.Full stack) (hb : Built c seats chips sb bb first table h) (hbb : bb.val < c.tableSize.get)
    (hchips : 0 < stack bb) : 0 < (c.posted bb).2 := by
  have hblinds := hb.blinds
  simp only [BlindValues.accepted, Bool.and_eq_true, decide_eq_true_eq] at hblinds
  rw [hb.posted_eq hf hbb]
  by_cases hsame : sb = bb
  · simp only [hsame, List.filter_cons, List.filter_nil, decide_true, if_true, List.foldl_cons, List.foldl_nil, meetPost_live]
    omega
  · simp only [hsame, List.filter_cons, List.filter_nil, decide_true, decide_false, if_true, Bool.false_eq_true, if_false,
      List.foldl_cons, List.foldl_nil, meetPost_live]
    omega

/-- Two seats of a full table hold the two blinds. -/
theorem Built.two_blinds (hf : c.Full stack) (hb : Built c seats chips sb bb first table h)
    (htwo : c.tableSize.get = 2) : sb ≠ bb ∧ sb.val < 2 ∧ bb.val < 2 := by
  have hs := placeStacks_seating (seating_empty c.tableSize) hb.placed
  have hocc : ∀ p, occupiedIn seats p = decide (p.val < 2) := by
    intro p
    rw [occupiedIn, hs.seat, List.nil_append, Option.isSome_map, hf.seated, htwo]
  have hbutton : c.button.val < 2 := by
    have := hb.button
    rw [hocc] at this
    exact of_decide_eq_true this
  have hpositions := hb.positions
  have hcount : c.seatStacks.length = 2 := hf.count.trans htwo
  have hval : (seatWrapped c.tableSize c.button 1).val = (c.button.val + 1) % 2 := congrArg ((c.button.val + 1) % ·) htwo
  have hnext : nextOccupied c.tableSize seats c.button = some (seatWrapped c.tableSize c.button 1) := by
    have hhead : occupiedIn seats (seatWrapped c.tableSize c.button 1) = true := by
      rw [hocc, decide_eq_true_eq, hval]
      exact Nat.mod_lt _ (by omega)
    rw [nextOccupied, clockwiseFrom, htwo, List.range'_succ, List.map_cons, List.find?_cons, hhead]
  rw [openingPositions, if_pos hcount, hnext] at hpositions
  obtain ⟨rfl, rfl, rfl⟩ : c.button = sb ∧ seatWrapped c.tableSize c.button 1 = bb ∧ c.button = first := by
    simpa using hpositions
  refine ⟨fun e => ?_, hbutton, by omega⟩
  have := congrArg Fin.val e
  omega

/-- Where the betting is open after the blinds: three seats and more, or two that both
    have more than the small blind. -/
theorem Built.full_opens (hf : c.Full stack) (hdeck : c.deck.Shuffled) (hb : Built c seats chips sb bb first table h)
    (hpositive : ∀ p ∈ c.tableSize.seats, 0 < stack p)
    (hcovers : c.tableSize.get = 2 → ∀ p ∈ c.tableSize.seats, c.blindValues.smallBlind < stack p) : c.opensBetting = true := by
  obtain ⟨hd, hsb, hbb, _⟩ := hb.dealtIn hdeck
  have hin : ∀ p, occupiedIn (c.dealtTo seats chips sb bb).seats p = true → p.val < c.tableSize.get := by
    intro p hp
    rw [hd.occupied, hf.seated] at hp
    exact of_decide_eq_true hp
  have hlead := hb.big_leads hf (hin bb hbb) (hpositive bb (c.tableSize.mem_seats.mpr (hin bb hbb)))
  have hblinds := hb.blinds
  simp only [BlindValues.accepted, Bool.and_eq_true, decide_eq_true_eq] at hblinds
  -- a seat that has chips left and has put in less than the big blind's seat
  obtain ⟨p, hp, hleft, hless⟩ : ∃ p ∈ c.tableSize.seats, 0 < (c.posted p).1 ∧ (c.posted p).2 < (c.posted bb).2 := by
    by_cases htwo : c.tableSize.get = 2
    · obtain ⟨hne, hsb2, hbb2⟩ := hb.two_blinds hf htwo
      have hcover := hcovers htwo
      have hsmall := hcover sb (c.tableSize.mem_seats.mpr (by omega))
      have hbig := hcover bb (c.tableSize.mem_seats.mpr (by omega))
      refine ⟨sb, c.tableSize.mem_seats.mpr (by omega), ?_⟩
      rw [hb.posted_eq hf (by omega), hb.posted_eq hf (by omega)]
      simp only [hne, Ne.symm hne, List.filter_cons, List.filter_nil, decide_true, decide_false, if_true, Bool.false_eq_true,
        if_false, List.foldl_cons, List.foldl_nil, meetPost_live]
      omega
    · obtain ⟨p, hp, hpsb, hpbb⟩ : ∃ p ∈ c.tableSize.seats, p ≠ sb ∧ p ≠ bb := by
        by_contra hnone
        push Not at hnone
        have hsub : c.tableSize.seats ⊆ [sb, bb] := by
          intro p hp
          by_cases hpsb : p = sb
          · simp [hpsb]
          · simp [hnone p hp hpsb]
        have hle := (c.tableSize.nodup_seats.subperm hsub).length_le
        rw [TableSize.length_seats] at hle
        have := c.tableSize.two_le
        simp only [List.length_cons, List.length_nil] at hle
        omega
      refine ⟨p, hp, ?_⟩
      have hnone : c.posted p = (stack p, 0) := by
        rw [hb.posted_eq hf (c.tableSize.mem_seats.mp hp)]
        simp [Ne.symm hpsb, Ne.symm hpbb]
      rw [hnone]
      exact ⟨hpositive p hp, hlead⟩
  have hmem : p ∈ (c.seatStacks.map (·.1)).filter fun p => 0 < (c.posted p).1 := by
    rw [hf.places]
    exact List.mem_filter.mpr ⟨hp, decide_eq_true hleft⟩
  unfold HandConfig.opensBetting
  split
  · rename_i hnil
    rw [hnil] at hmem
    cases hmem
  · rename_i only hone
    rw [hone] at hmem
    obtain rfl := List.mem_singleton.mp hmem
    refine List.any_eq_true.mpr ⟨bb, ?_, decide_eq_true hless⟩
    rw [hf.places]
    exact c.tableSize.mem_seats.mpr (hin bb hbb)
  · rfl

end opens

end MultiwayHand

end OpenFelt
