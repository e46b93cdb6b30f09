/-
  OpenFelt.Game.Debts — what becomes of a missed blind (`src/game/lifecycle.rs`).

  A call either leaves a player's debts (`Thins`), adds one, promotes a waiting player,
  or deals. Dealing takes every debt of the players dealt in as a post. Promotion clears
  both debts at once, and only the big blind of a player with chips is then posted.

  Proved:
  - `promoted_bigBlind`: a promoted player with chips is the big blind of the hand that follows.
  - `run_pays`: every debt of a run is paid or kept exactly when no promotion of the run
    picks a player who owes a small blind, or who owes anything and has no chips.
-/

import OpenFelt.Game.LifecycleRuns

namespace OpenFelt

/-- The component of a debt. -/
def BlindObligation.owes : BlindObligation → MissedBlind → Bool
  | owesSmallBlind, .small => true
  | owesBigBlind, .big => true
  | owesBoth, _ => true
  | _, _ => false

theorem owes_missed (o : BlindObligation) (missed m : MissedBlind) (h : o.owes m = true) : (o.missed missed).owes m = true := by
  cases o <;> cases missed <;> cases m <;> first | rfl | cases h

theorem owes_some {o : BlindObligation} (h : o ≠ .clear) : o.owes .small = true ∨ o.owes .big = true := by
  cases o <;> simp_all [BlindObligation.owes]

/-- The seat posts this blind in the hand: from its position, or as a forced post. -/
def HandStart.posts (start : HandStart) (seats : TableSeats) (p : SeatId) : MissedBlind → Prop
  | .small => (∃ positions, seats.positions start.button = .ok positions ∧ positions.smallBlind = p) ∨
      ⟨p, smallBlind, false⟩ ∈ start.forcedPosts
  | .big => (∃ positions, seats.positions start.button = .ok positions ∧ positions.bigBlind = p) ∨
      ⟨p, bigBlind, true⟩ ∈ start.forcedPosts

namespace TableLifecycle

variable {t t' : TableLifecycle} {op : LifecycleOp}

/-- Every debt at the table is still owed after the call, or its seat is vacated, or the
    call deals its player in and takes that blind. -/
def DebtsPaid (op : LifecycleOp) (t : TableLifecycle) : Prop :=
  ∀ p st missed, t.seats.seat p = some st → st.blindObligation.owes missed = true →
    (op.apply t).seats.seat p = none ∨
      (∃ st', (op.apply t).seats.seat p = some st' ∧ st'.playerId = st.playerId ∧
        st'.blindObligation.owes missed = true) ∨
      ∃ start, op = .beginHand ∧ t.beginHand.1 = .ok start ∧ p ∈ start.seatStacks.map (·.1) ∧
        start.posts (op.apply t).seats p missed

/-- The next hand promotes a player who owes and cannot post, or whose small blind nobody will ask for. -/
def Forgets (t : TableLifecycle) : Prop :=
  t.activeHand = none ∧ t.state ≠ .closed ∧ ∃ p st, t.promoted = some p ∧ t.seats.seat p = some st ∧
    (st.stack = 0 ∧ st.blindObligation ≠ .clear ∨ st.blindObligation.owes .small = true)

/-! ## Calls that leave the debts -/

/-- Nobody new, and whoever stays owes the same. -/
def Thins (t t' : TableLifecycle) : Prop :=
  ∀ p, t'.seats.seat p = none ∨ ∃ st st', t.seats.seat p = some st ∧ t'.seats.seat p = some st' ∧
    st'.playerId = st.playerId ∧ st'.blindObligation = st.blindObligation

theorem Thins.refl (t : TableLifecycle) : Thins t t := by
  intro p
  cases hp : t.seats.seat p with
  | none => exact Or.inl rfl
  | some st => exact Or.inr ⟨st, st, rfl, rfl, rfl, rfl⟩

theorem Thins.trans {t'' : TableLifecycle} (h : Thins t t') (h' : Thins t' t'') : Thins t t'' := by
  intro p
  rcases h' p with hnone | ⟨st', st'', hst', hst'', hplayer', howes'⟩
  · exact Or.inl hnone
  · rcases h p with hnone | ⟨st, st₁, hst, hst₁, hplayer, howes⟩
    · rw [hnone] at hst'; cases hst'
    · rw [hst₁] at hst'
      cases hst'
      exact Or.inr ⟨st, st'', hst, hst'', hplayer'.trans hplayer, howes'.trans howes⟩

theorem Thins.modify (t : TableLifecycle) (seat : SeatId) (f : SeatState → SeatState) (hf)
    (hkeeps : ∀ st, (f st).blindObligation = st.blindObligation) : Thins t (t.modifySeat seat f hf) := by
  intro p
  cases hp : t.seats.seat p with
  | none => exact Or.inl (by simp only [modifySeat, TableSeats.seat_modify, hp]; split <;> rfl)
  | some st =>
    refine Or.inr ⟨st, if p = seat then f st else st, rfl, ?_, ?_, ?_⟩
    · simp only [modifySeat, TableSeats.seat_modify, hp]; split <;> rfl
    · split
      · exact hf st
      · rfl
    · split
      · exact hkeeps st
      · rfl

theorem Thins.transition (t : TableLifecycle) (player : PlayerId) (transition : PendingSeatTransition) :
    Thins t (t.applyTransition player transition) := by
  unfold applyTransition
  cases t.seats.seatForPlayer player with
  | none => exact .refl t
  | some seat =>
    cases transition with
    | sitOut => exact .modify t seat _ _ fun _ => rfl
    | «return» => exact .modify t seat _ _ fun _ => rfl
    | leave =>
      intro p
      by_cases hp : p = seat
      · exact Or.inl (by simp [hp])
      · have hkept := Thins.refl t p
        simpa [hp] using hkept

theorem Thins.pending (t : TableLifecycle) : Thins t t.applyPending := by
  unfold applyPending
  suffices hfold : ∀ (l : List (PlayerId × PendingSeatTransition)) (t : TableLifecycle),
      Thins t (l.foldl (fun t (x : PlayerId × PendingSeatTransition) => t.applyTransition x.1 x.2) t) from
    hfold t.pending.entries { t with pending := .empty }
  intro l
  induction l with
  | nil => exact Thins.refl
  | cons x l ih => exact fun t => (Thins.transition t x.1 x.2).trans (ih _)

theorem Thins.settled (t : TableLifecycle) (settled : OrdMap SeatId Nat) : Thins t { t with
    seats := settled.entries.foldl (fun seats (seat, stack) => seats.modify seat (settleSeat stack) fun _ => rfl) t.seats
    activeHand := none } := by
  intro p
  have hseat := (TableSeats.seat_foldl_modify settleSeat (fun _ _ => rfl) settled.entries OrdMap.nodup_keys t.seats).2 p
  have hkept := Thins.refl t p
  rw [show TableSeats.seat _ p = _ from hseat]
  cases settled.entries.lookup p with
  | none => exact hkept
  | some stack =>
    cases hp : t.seats.seat p with
    | none => exact Or.inl rfl
    | some st => exact Or.inr ⟨st, settleSeat stack st, rfl, rfl, rfl, rfl⟩

theorem Thins.refresh (h : Thins t t') : Thins t t'.refreshBetweenHandState := by
  intro p
  rw [refresh_frame]
  exact h p

/-! ## The promoted player -/

variable {p : SeatId} {st : SeatState}

/-- Promotion: the seat's player active and clear of debt. -/
def promotion (st : SeatState) : SeatState := { st with tableParticipation := .active, blindObligation := .clear }

theorem promotion_player (st : SeatState) : (promotion st).playerId = st.playerId := rfl

theorem promote_some (h : t.promoted = some p) :
    t.promoteNaturalBigBlindWaiter = t.modifySeat p promotion promotion_player := by
  rw [promoteNaturalBigBlindWaiter, h]
  rfl

theorem promote_none (h : t.promoted = none) : t.promoteNaturalBigBlindWaiter = t := by
  rw [promoteNaturalBigBlindWaiter, h]

theorem promoted_waits (h : t.promoted = some p) : t.prospectiveBigBlind p = some p ∧
    ∃ st, t.seats.seat p = some st ∧ st.tableParticipation = .waitingForBlind := by
  refine ⟨by simpa using List.find?_some h, ?_⟩
  obtain ⟨⟨q, st⟩, hmem, rfl⟩ := List.mem_map.mp (List.mem_of_find?_eq_some h)
  obtain ⟨hocc, hwaits⟩ := List.mem_filter.mp hmem
  exact ⟨st, t.seats.mem_occupied.mp hocc, by simpa using hwaits⟩

/-- With chips, the hand that would start is the hand that does. -/
theorem promoted_eligible (h : t.promoted = some p) (hst : t.seats.seat p = some st) (hchips : 0 < st.stack) (q : SeatId) :
    (t.promoteNaturalBigBlindWaiter).seats.eligible q = t.prospective p q := by
  rw [promote_some h, TableSeats.eligible, prospective]
  simp only [modifySeat, TableSeats.seat_modify]
  by_cases hq : q = p
  · subst hq
    simp [hst, promotion, SeatState.eligibleForNextHand, hchips]
  · simp [hq, TableSeats.eligible]

theorem prospectiveBigBlind_eq (hr : t.Ring) (h : t.promoted = some p) (hst : t.seats.seat p = some st)
    (hchips : 0 < st.stack) : t.prospectiveBigBlind p =
      if t.promoteNaturalBigBlindWaiter.eligibleCount < 2 then none
      else t.promoteNaturalBigBlindWaiter.nextButton.map fun button =>
        let first := (t.promoteNaturalBigBlindWaiter.seats.nextForHand button).getD button
        if t.promoteNaturalBigBlindWaiter.eligibleCount = 2 then first
        else (t.promoteNaturalBigBlindWaiter.seats.nextForHand first).getD button := by
  have heligible : t.promoteNaturalBigBlindWaiter.seats.eligible = t.prospective p :=
    funext (promoted_eligible h hst hchips)
  have hframe := t.promote_frame
  have hsize := hr.promote.size
  generalize t.promoteNaturalBigBlindWaiter = k at heligible hframe hsize
  have hlast : k.lastButton = t.lastButton := by rw [hframe]
  have htable : k.tableSize = t.tableSize := by rw [hframe]
  have hcount : (t.seats.occupied.filter fun x => t.prospective p x.1).length = k.eligibleCount := by
    have hseated : ∀ q, t.prospective p q = true → (t.seats.seat q).isSome = true := fun q hq => by
      rw [prospective, Bool.or_eq_true, Bool.and_eq_true] at hq
      rcases hq with hq | ⟨hq, _⟩
      · obtain ⟨st', hst', _⟩ := TableSeats.eligible_iff.mp hq
        rw [hst']; rfl
      · exact hq
    rw [t.seats.length_occupied_filter _ hseated, eligibleCount, TableSeats.eligibleCount_eq, heligible, hsize, htable, hr.size]
  have hbutton : k.nextButton = t.lastButton.elim (t.tableSize.seats.find? (t.prospective p))
      fun last => t.tableSize.nextEligible last (t.prospective p) := by
    rw [nextButton, hlast, htable, heligible]
    cases t.lastButton with
    | none => rfl
    | some last => simp only [TableSeats.nextForHand, hsize, htable, heligible, Option.elim_some]
  have hnext : k.seats.nextForHand = fun q => t.tableSize.nextEligible q (t.prospective p) := by
    funext q
    rw [TableSeats.nextForHand, hsize, htable, heligible]
  rw [hbutton, hnext, ← hcount]
  unfold prospectiveBigBlind
  cases t.lastButton <;> rfl

/-- A promoted player with chips is the big blind of the hand that follows. -/
theorem promoted_bigBlind (hr : t.Ring) (h : t.promoted = some p) (hst : t.seats.seat p = some st) (hchips : 0 < st.stack) :
    2 ≤ t.promoteNaturalBigBlindWaiter.eligibleCount ∧ ∃ positions,
      t.promoteNaturalBigBlindWaiter.seats.positions t.promoteNaturalBigBlindWaiter.handStart.button = .ok positions ∧
        positions.bigBlind = p ∧ positions.smallBlind ≠ p := by
  have hcome := (promoted_waits h).1
  rw [prospectiveBigBlind_eq hr h hst hchips] at hcome
  have hroster := hr.promote
  generalize t.promoteNaturalBigBlindWaiter = k at hcome hroster
  by_cases hfew : k.eligibleCount < 2
  · rw [if_pos hfew] at hcome; cases hcome
  have hcount : 2 ≤ k.eligibleCount := Nat.le_of_not_lt hfew
  obtain ⟨hbutton, heligible, _⟩ := hroster.beginHand_positions hcount
  rw [if_neg hfew, hbutton, Option.map_some, Option.some.injEq] at hcome
  refine ⟨hcount, ?_⟩
  rcases TableSeats.positions_ok heligible hcount with ⟨htwo, bigBlind, hnext, hpos⟩ |
    ⟨hmany, smallBlind, bigBlind, first, hnext, hsecond, _, hpos⟩
  · have htwo' : k.eligibleCount = 2 := htwo
    simp only [htwo', if_true, hnext, Option.getD_some] at hcome
    exact ⟨_, hpos, hcome, hcome ▸ (TableSeats.nextForHand_eligible hnext).2.symm⟩
  · have hmany' : ¬ k.eligibleCount = 2 := by have : 3 ≤ k.eligibleCount := hmany; omega
    simp only [if_neg hmany', hnext, Option.getD_some, hsecond] at hcome
    exact ⟨_, hpos, hcome, hcome ▸ (TableSeats.nextForHand_eligible hsecond).2.symm⟩

/-! ## Dealing -/

/-- A debt of a player dealt in is a post, unless the position posts it. -/
theorem mem_forcedPosts {sb bb : SeatId} {owed : List (SeatId × BlindObligation)} {o : BlindObligation} (hmem : (p, o) ∈ owed) :
    (o.owes .small = true → p ≠ sb → (⟨p, smallBlind, false⟩ : ForcedPost) ∈ forcedPosts sb bb owed) ∧
      (o.owes .big = true → p ≠ bb → (⟨p, bigBlind, true⟩ : ForcedPost) ∈ forcedPosts sb bb owed) := by
  refine ⟨fun howes hne => ?_, fun howes hne => ?_⟩
  · refine List.mem_flatMap.mpr ⟨(p, o), hmem, ?_⟩
    cases o <;> simp_all [BlindObligation.posts, BlindObligation.owes]
  · refine List.mem_flatMap.mpr ⟨(p, o), hmem, ?_⟩
    cases o <;> simp_all [BlindObligation.posts, BlindObligation.owes]

theorem posts_seat {sb bb : SeatId} {o : BlindObligation} {post : ForcedPost} (h : post ∈ o.posts sb bb p) :
    post.seat = p ∧ o ≠ .clear := by
  cases o with
  | clear => cases h
  | owesSmallBlind =>
    rw [BlindObligation.posts] at h
    split at h
    · rw [List.mem_singleton.mp h]; exact ⟨rfl, by simp⟩
    · cases h
  | owesBigBlind =>
    rw [BlindObligation.posts] at h
    split at h
    · rw [List.mem_singleton.mp h]; exact ⟨rfl, by simp⟩
    · cases h
  | owesBoth =>
    refine ⟨?_, by simp⟩
    rw [BlindObligation.posts] at h
    rcases List.mem_append.mp h with h | h
    · split at h
      · rw [List.mem_singleton.mp h]
      · cases h
    · split at h
      · rw [List.mem_singleton.mp h]
      · cases h

/-- Nobody without a debt is asked to post. -/
theorem forcedPosts_owed {sb bb : SeatId} {owed : List (SeatId × BlindObligation)} {post : ForcedPost}
    (h : post ∈ forcedPosts sb bb owed) : ∃ o, (post.seat, o) ∈ owed ∧ o ≠ .clear := by
  obtain ⟨⟨q, o⟩, hmem, hpost⟩ := List.mem_flatMap.mp h
  obtain ⟨rfl, howes⟩ := posts_seat hpost
  exact ⟨o, hmem, howes⟩

theorem mem_dealtObligations {o : BlindObligation} : (p, o) ∈ t.dealtObligations ↔
    ∃ st, t.seats.seat p = some st ∧ st.eligibleForNextHand = true ∧ st.blindObligation = o := by
  simp only [dealtObligations, List.mem_map, List.mem_filter, Prod.exists, Prod.mk.injEq, TableSeats.mem_occupied]
  constructor
  · rintro ⟨q, st, ⟨hst, hel⟩, rfl, rfl⟩
    exact ⟨st, hst, hel, rfl⟩
  · rintro ⟨st, hst, hel, rfl⟩
    exact ⟨p, st, ⟨hst, hel⟩, rfl, rfl⟩

theorem mem_dealtStacks : p ∈ t.dealtStacks.map (·.1) ↔ t.seats.eligible p = true := by
  rw [TableSeats.eligible_iff]
  simp only [dealtStacks, List.map_map, List.mem_map, List.mem_filter, Prod.exists, Function.comp_apply,
    TableSeats.mem_occupied]
  constructor
  · rintro ⟨q, st, ⟨hst, hel⟩, rfl⟩
    exact ⟨st, hst, hel⟩
  · rintro ⟨st, hst, hel⟩
    exact ⟨p, st, ⟨hst, hel⟩, rfl⟩

theorem eligible_dealHand (t : TableLifecycle) (q : SeatId) : t.dealHand.seats.eligible q = t.seats.eligible q := by
  rw [TableSeats.eligible, seat_dealHand]
  split
  · rw [TableSeats.eligible]
    cases t.seats.seat q <;> rfl
  · rfl

theorem positions_dealHand (t : TableLifecycle) (b : SeatId) : t.dealHand.seats.positions b = t.seats.positions b :=
  TableSeats.positions_congr (TableSeats.seat_foldl_modify (fun (_ : Nat) => dealIn) (fun _ _ => rfl) t.dealtStacks
    t.nodup_dealtStacks t.seats).1 t.eligible_dealHand b

/-- A player dealt in posts what they owe. -/
theorem dealt_posts (hr : t.Ring) (hcount : 2 ≤ t.eligibleCount) (hst : t.seats.seat p = some st)
    (hel : st.eligibleForNextHand = true) {missed : MissedBlind} (howes : st.blindObligation.owes missed = true) :
    p ∈ t.handStart.seatStacks.map (·.1) ∧ t.handStart.posts t.dealHand.seats p missed := by
  obtain ⟨_, _, hpos⟩ := hr.beginHand_positions hcount
  have hmem : (p, st.blindObligation) ∈ t.dealtObligations := mem_dealtObligations.mpr ⟨st, hst, hel, rfl⟩
  have hforced := @mem_forcedPosts p (t.blindsFrom t.handStart.button).smallBlind (t.blindsFrom t.handStart.button).bigBlind
    _ _ hmem
  refine ⟨mem_dealtStacks.mpr (TableSeats.eligible_iff.mpr ⟨st, hst, hel⟩), ?_⟩
  cases missed with
  | small =>
    by_cases hp : p = (t.blindsFrom t.handStart.button).smallBlind
    · exact Or.inl ⟨_, (positions_dealHand ..).trans hpos, hp.symm⟩
    · exact Or.inr (hforced.1 howes hp)
  | big =>
    by_cases hp : p = (t.blindsFrom t.handStart.button).bigBlind
    · exact Or.inl ⟨_, (positions_dealHand ..).trans hpos, hp.symm⟩
    · exact Or.inr (hforced.2 howes hp)

theorem seat_dealHand_kept (hst : t.seats.seat p = some st) (hel : ¬ st.eligibleForNextHand = true) :
    t.dealHand.seats.seat p = some st := by
  have hout : ¬ t.seats.eligible p = true := fun he => by
    obtain ⟨st', hst', hel'⟩ := TableSeats.eligible_iff.mp he
    rw [hst] at hst'
    cases hst'
    exact hel hel'
  rw [seat_dealHand, if_neg hout, hst]

/-- A promoted player with chips posts the big blind of the hand. -/
theorem promoted_posts (hr : t.Ring) (hpro : t.promoted = some p) (hst : t.seats.seat p = some st) (hchips : 0 < st.stack) :
    p ∈ t.promoteNaturalBigBlindWaiter.handStart.seatStacks.map (·.1) ∧
      t.promoteNaturalBigBlindWaiter.handStart.posts t.promoteNaturalBigBlindWaiter.dealHand.seats p .big := by
  obtain ⟨_, positions, hpos, hbig, _⟩ := promoted_bigBlind hr hpro hst hchips
  refine ⟨mem_dealtStacks.mpr ?_, Or.inl ⟨positions, (positions_dealHand ..).trans hpos, hbig⟩⟩
  rw [promoted_eligible hpro hst hchips, prospective, hst]
  simp

/-! ## One call -/

/-- What became of one debt, `left` being the table after the call. -/
def DebtPaid (op : LifecycleOp) (t left : TableLifecycle) (p : SeatId) (st : SeatState) (missed : MissedBlind) : Prop :=
  left.seats.seat p = none ∨
    (∃ st', left.seats.seat p = some st' ∧ st'.playerId = st.playerId ∧ st'.blindObligation.owes missed = true) ∨
    ∃ start, op = .beginHand ∧ t.beginHand.1 = .ok start ∧ p ∈ start.seatStacks.map (·.1) ∧ start.posts left.seats p missed

variable {left : TableLifecycle} {missed : MissedBlind}

theorem DebtPaid.same (hst : left.seats.seat p = some st) (howes : st.blindObligation.owes missed = true) :
    DebtPaid op t left p st missed :=
  Or.inr (Or.inl ⟨st, hst, rfl, howes⟩)

theorem Thins.paid (h : Thins t left) (hst : t.seats.seat p = some st) (howes : st.blindObligation.owes missed = true) :
    DebtPaid op t left p st missed := by
  rcases h p with hnone | ⟨st₀, st', hst₀, hst', hplayer, hsame⟩
  · exact Or.inl hnone
  · rw [hst] at hst₀
    cases hst₀
    exact Or.inr (Or.inl ⟨st', hst', hplayer, hsame ▸ howes⟩)

/-- Seating a player moves nobody. -/
theorem Seats.others {player : PlayerId} {seat : SeatId} {stack : Nat} (h : Seats t player seat stack t')
    (hst : t.seats.seat p = some st) : p ≠ seat ∧ t'.seats.seat p = some st := by
  obtain ⟨seats, reservations, hocc, rfl⟩ := h.taken
  have hne : p ≠ seat := fun he => by rw [he, h.free] at hst; cases hst
  have hseat := (TableSeats.occupy_ok hocc).2.2.2.2 p
  rw [if_neg hne] at hseat
  rw [refresh_frame]
  exact ⟨hne, hseat.trans hst⟩

/-- A promotion for a hand that does not start takes no debt, unless it forgets one. -/
theorem Ring.short_thins (hr : t.Ring) (hidle : t.activeHand = none) (hopen : t.state ≠ .closed) (hkept : ¬ Forgets t)
    (hcount : t.promoteNaturalBigBlindWaiter.eligibleCount < 2) : Thins t t.promoteNaturalBigBlindWaiter := by
  cases hpro : t.promoted with
  | none => rw [promote_none hpro]; exact Thins.refl t
  | some c =>
    obtain ⟨_, st, hst, _⟩ := promoted_waits hpro
    have hempty : st.stack = 0 := by
      by_contra hchips
      have := (promoted_bigBlind hr hpro hst (Nat.pos_of_ne_zero hchips)).1
      omega
    -- Then there is no debt for the promotion to clear.
    have hclear : st.blindObligation = .clear := by
      by_contra howed
      exact hkept ⟨hidle, hopen, c, st, hpro, hst, Or.inl ⟨hempty, howed⟩⟩
    intro p
    rw [promote_some hpro]
    by_cases hp : p = c
    · subst hp
      exact Or.inr ⟨st, promotion st, hst, by simp [modifySeat, hst], rfl, hclear.symm⟩
    · have hkeeps := Thins.refl t p
      simpa [modifySeat, hp] using hkeeps

/-- A dealt hand leaves the debts of those sitting out and takes the others as posts; the
    promoted player's is the big blind alone, unless the promotion forgets. -/
theorem Ring.dealt_paid (hr : t.Ring) (hidle : t.activeHand = none) (hopen : t.state ≠ .closed) (hkept : ¬ Forgets t)
    (hcount : 2 ≤ t.promoteNaturalBigBlindWaiter.eligibleCount)
    (hok : t.beginHand.1 = .ok t.promoteNaturalBigBlindWaiter.handStart) (hst : t.seats.seat p = some st)
    (howes : st.blindObligation.owes missed = true) :
    DebtPaid .beginHand t t.promoteNaturalBigBlindWaiter.dealHand p st missed := by
  have hdealt : t.promoteNaturalBigBlindWaiter.seats.seat p = some st →
      DebtPaid .beginHand t t.promoteNaturalBigBlindWaiter.dealHand p st missed := by
    intro hst
    by_cases hel : st.eligibleForNextHand = true
    · obtain ⟨hin, hposts⟩ := dealt_posts hr.promote hcount hst hel howes
      exact Or.inr (Or.inr ⟨_, rfl, hok, hin, hposts⟩)
    · exact .same (seat_dealHand_kept hst hel) howes
  cases hpro : t.promoted with
  | none => exact hdealt (by rw [promote_none hpro, hst])
  | some c =>
    by_cases hp : p = c
    · subst hp
      have howed : st.blindObligation ≠ .clear := by
        intro hclear
        rw [hclear] at howes
        cases missed <;> cases howes
      have hchips : 0 < st.stack := Nat.pos_of_ne_zero fun h0 =>
        hkept ⟨hidle, hopen, p, st, hpro, hst, Or.inl ⟨h0, howed⟩⟩
      have hsmall : ¬ st.blindObligation.owes .small = true := fun h =>
        hkept ⟨hidle, hopen, p, st, hpro, hst, Or.inr h⟩
      cases missed with
      | small => exact absurd howes hsmall
      | big => exact Or.inr (Or.inr ⟨_, rfl, hok, promoted_posts hr hpro hst hchips⟩)
    · refine hdealt ?_
      rw [promote_some hpro]
      simp [modifySeat, hp, hst]

theorem Ring.pays (hr : t.Ring) (hkept : op = .beginHand → ¬ Forgets t) : DebtsPaid op t := by
  intro p st missed hst howes
  have hmoves := t.apply_moves op
  generalize op.apply t = left at hmoves
  show DebtPaid op t left p st missed
  cases hmoves with
  | same => exact .same hst howes
  | booked => exact .same hst howes
  | seated _ _ h => exact .same (h.others hst).2 howes
  | @entered player seat stack entry t' _ h =>
    obtain ⟨hne, hst'⟩ := h.others hst
    refine .same ?_ howes
    rw [refresh_frame]
    have hseat := @TableSeats.seat_modify t'.seats seat p (entering entry) fun _ => rfl
    exact hseat.trans ((if_neg hne).trans hst')
  | owed player missed' seat =>
    by_cases hp : p = seat
    · refine Or.inr (Or.inl ⟨{ st with blindObligation := st.blindObligation.missed missed' }, ?_, rfl,
        owes_missed _ missed' missed howes⟩)
      simp [modifySeat, hp, hp ▸ hst]
    · exact .same (by simp [modifySeat, hp, hst]) howes
  | linked _ _ seat =>
    refine Thins.paid ?_ hst howes
    exact .modify t seat _ _ fun _ => rfl
  | returned _ _ seat =>
    refine (Thins.refresh ?_).paid hst howes
    exact .modify t seat _ _ fun _ => rfl
  | passed _ player transition => exact (Thins.transition t player transition).refresh.paid hst howes
  | queued => exact .same hst howes
  | short hidle hopen hcount => exact (hr.short_thins hidle hopen (hkept rfl) hcount).paid hst howes
  | dealt hidle hopen hcount hok => exact hr.dealt_paid hidle hopen (hkept rfl) hcount hok hst howes
  | completed finalStacks start settled =>
    exact ((Thins.settled t settled).trans (Thins.pending _)).refresh.paid hst howes
  | closed => exact .same hst howes

/-- A promotion that forgets takes a debt nobody pays. -/
theorem Ring.forgets (hr : t.Ring) (h : Forgets t) : ¬ DebtsPaid .beginHand t := by
  obtain ⟨hidle, hopen, p, st, hpro, hst, hcause⟩ := h
  intro hpaid
  have hseat : t.promoteNaturalBigBlindWaiter.seats.seat p = some (promotion st) := by
    rw [promote_some hpro]
    simp [modifySeat, hst]
  obtain ⟨missed, howes, hmissed⟩ : ∃ missed, st.blindObligation.owes missed = true ∧ (st.stack = 0 ∨ missed = .small) := by
    rcases hcause with ⟨h0, howed⟩ | hsmall
    · rcases owes_some howed with h | h
      · exact ⟨_, h, Or.inl h0⟩
      · exact ⟨_, h, Or.inl h0⟩
    · exact ⟨_, hsmall, Or.inr rfl⟩
  have hcleared : ∀ {st' : SeatState}, st'.blindObligation = .clear → ¬ st'.blindObligation.owes missed = true := by
    intro st' hclear howes
    rw [hclear] at howes
    cases missed <;> cases howes
  have hpays := hpaid p st missed hst howes
  rw [LifecycleOp.apply] at hpays
  rcases t.beginHand_cases with ⟨hbusy | hclosed, _⟩ | ⟨_, _, ⟨hshort, he⟩ | ⟨hcount, he⟩⟩
  · rw [handActive, hidle] at hbusy; cases hbusy
  · exact hopen hclosed
  · rw [he] at hpays
    rcases hpays with hnone | ⟨st', hst', _, howes'⟩ | ⟨start, _, hok, _⟩
    · cases hseat.symm.trans hnone
    · cases hseat.symm.trans hst'
      exact hcleared rfl howes'
    · cases hok
  · rw [he] at hpays
    have hafter : ∃ st', t.promoteNaturalBigBlindWaiter.dealHand.seats.seat p = some st' ∧ st'.blindObligation = .clear := by
      rw [seat_dealHand, hseat]
      split
      · exact ⟨_, rfl, rfl⟩
      · exact ⟨_, rfl, rfl⟩
    obtain ⟨st₁, hst₁, hclear⟩ := hafter
    rcases hpays with hnone | ⟨st', hst', _, howes'⟩ | ⟨start, _, hok, hin, hposts⟩
    · cases hst₁.symm.trans hnone
    · cases hst₁.symm.trans hst'
      exact hcleared hclear howes'
    · cases hok
      obtain ⟨st', hst', hel⟩ := TableSeats.eligible_iff.mp (mem_dealtStacks.mp hin)
      cases hseat.symm.trans hst'
      have hchips : 0 < st.stack := by
        simp only [promotion, SeatState.eligibleForNextHand, Bool.and_eq_true, decide_eq_true_eq] at hel
        exact of_decide_eq_true hel.1
      obtain rfl : missed = .small := hmissed.resolve_left (by omega)
      obtain ⟨_, positions, hpos, _, hsmall⟩ := promoted_bigBlind hr hpro hst hchips
      rcases hposts with ⟨positions', hpos', hnatural⟩ | hforced
      · rw [positions_dealHand, hpos] at hpos'
        cases hpos'
        exact hsmall hnatural
      · obtain ⟨o, howed, hne⟩ := forcedPosts_owed hforced
        obtain ⟨st', hst', _, ho⟩ := mem_dealtObligations.mp howed
        cases hseat.symm.trans hst'
        exact hne ho.symm

/-! ## Every run -/

/-- Every debt of a run, at a new table or a restored one, is kept, posted or leaves with its seat, exactly when no
    hand of the run starts with the promotion of a player who owes a small blind or owes and has no chips. -/
theorem run_pays (hstart : t.Starts) (ops : List LifecycleOp) :
    (∀ before op after, ops = before ++ op :: after → DebtsPaid op (t.run before)) ↔
      ∀ before after, ops = before ++ .beginHand :: after → ¬ Forgets (t.run before) := by
  have hring := fun before => hstart.ring.run before
  constructor
  · intro hpaid before after hops hforgets
    exact (hring before).forgets hforgets (hpaid before .beginHand after hops)
  · intro hnever before op after hops
    exact (hring before).pays fun hop => hnever before after (hop ▸ hops)

/-- Two players between hands, and a third who waits and owes the big blind. -/
def oneWaits : BetweenHandLifecycle :=
  ⟨.three, [⟨0, ⟨1⟩, 101, .active, .clear⟩, ⟨1, ⟨2⟩, 99, .active, .clear⟩,
    ⟨2, ⟨3⟩, 50, .waitingForBlind, .owesBigBlind⟩], .running, some 0, 2⟩

/-- Player 1 sits out, and the third is promoted and dealt in. -/
theorem run_pays_promoted : ∃ t, restoreBetweenHand oneWaits = .ok t ∧
    ((LifecycleOp.requestSitOut ⟨1⟩).apply t).promoted = some 2 ∧ ∀ before op after,
      [.requestSitOut ⟨1⟩, .beginHand] = before ++ op :: after → DebtsPaid op (t.run before) := by
  have hruns : (restoreBetweenHand oneWaits).toOption.map (fun t =>
      let left := (LifecycleOp.requestSitOut ⟨1⟩).apply t
      (left.promoted, (left.seats.seat 2).map fun st => (st.stack, st.blindObligation))) =
        some (some 2, some (50, .owesBigBlind)) := by decide +kernel
  cases ht : restoreBetweenHand oneWaits with
  | error error => rw [ht] at hruns; cases hruns
  | ok t =>
    rw [ht] at hruns
    obtain ⟨hpromoted, hseat⟩ := Prod.mk.inj (Option.some.inj hruns)
    refine ⟨t, rfl, hpromoted, (run_pays (.restored _ t ht) _).mpr ?_⟩
    have hkept : ¬ Forgets ((LifecycleOp.requestSitOut ⟨1⟩).apply t) := by
      rintro ⟨_, _, p, st, hp, hst, hcause⟩
      obtain rfl := Option.some.inj (hpromoted.symm.trans hp)
      rw [hst] at hseat
      obtain ⟨hstack, howed⟩ := Prod.mk.inj (Option.some.inj hseat)
      rw [hstack, howed] at hcause
      exact absurd hcause (by decide)
    intro before after hops
    exact throughout_cons (P := fun op t => op = .beginHand → ¬ Forgets t) (fun h => by cases h)
      (throughout_cons (P := fun op t => op = .beginHand → ¬ Forgets t) (fun _ => hkept)
        fun before call after hops => by simp at hops) before .beginHand after hops rfl

/-- A player who owes both blinds waits for the big one and is never asked for the small one. -/
theorem small_blind_forgotten : ∃ ops : List LifecycleOp, ¬ DebtsPaid .beginHand ((new ⟨3, by decide, by decide⟩).run ops) := by
  refine ⟨[.join ⟨1⟩ 0 100, .join ⟨2⟩ 1 100, .beginHand, .completeHand [(0, 100), (1, 100)],
    .joinWithEntry ⟨3⟩ 2 100 .waitForBigBlind, .recordMissedBlind ⟨3⟩ .small, .requestSitOut ⟨1⟩],
    ((Starts.new _).ring.run _).forgets ⟨by decide +kernel, by decide +kernel, 2, ?_, by decide +kernel, ?_, ?_⟩⟩
  · exact { SeatState.seated ⟨3⟩ 100 with tableParticipation := .waitingForBlind, blindObligation := .owesBoth }
  · decide +kernel
  · exact Or.inr rfl

end TableLifecycle

end OpenFelt
