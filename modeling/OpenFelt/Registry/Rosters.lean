/-
  OpenFelt.Registry.Rosters — a table's roster as the registry uses it: players join
  between hands and leave, and nobody reserves, sits out or waits for a blind (`Plain`).

  One lemma says what each of the five calls does to the seats: `Enters` for the two that
  seat a player, `requestLeave_cases`, `Deals` for `begin_hand`, `Settles` for
  `complete_hand`.
-/

import OpenFelt.Game.Debts

namespace OpenFelt

namespace TableLifecycle

/-- Who sits there. -/
def playerAt (t : TableLifecycle) (p : SeatId) : Option PlayerId := (t.seats.seat p).map (·.playerId)

/-- The player of the seat has asked to leave after the hand. -/
def leavingAt (t : TableLifecycle) (p : SeatId) : Bool := (t.playerAt p).any fun player => t.pending.contains player

structure Plain (t : TableLifecycle) : Prop extends Sound t where
  isOpen : t.state ≠ .closed
  unreserved : t.reservations = .empty
  active : ∀ p st, t.seats.seat p = some st → st.tableParticipation = .active
  leaving : ∀ player transition, t.pending.find? player = some transition → transition = .leave

section plain
variable {t t' : TableLifecycle} {player : PlayerId} {seat p : SeatId} {stack : Nat} {st : SeatState}

theorem new_plain (size : TableSize) : (new size).Plain :=
  ⟨(Starts.new size).sound, by simp [new], rfl, fun _ _ h => (by cases h), fun _ _ h => (by cases h)⟩

theorem playerAt_some : t.playerAt p = some player ↔ ∃ st, t.seats.seat p = some st ∧ st.playerId = player :=
  Option.map_eq_some_iff

theorem playerAt_none : t.playerAt p = none ↔ t.seats.seat p = none := Option.map_eq_none_iff

theorem playerAt_inj {q : SeatId} (h : t.playerAt p = some player) (h' : t.playerAt q = some player) : p = q := by
  obtain ⟨st, hst, rfl⟩ := playerAt_some.mp h
  obtain ⟨st', hst', he⟩ := playerAt_some.mp h'
  exact t.seats.distinct p q st st' hst hst' he.symm

theorem seatForPlayer_iff : t.seats.seatForPlayer player = some p ↔ t.playerAt p = some player := by
  rw [TableSeats.seatForPlayer_some, playerAt_some]

theorem Plain.eligible_iff (ht : t.Plain) : t.seats.eligible p = true ↔ ∃ st, t.seats.seat p = some st ∧ 0 < st.stack := by
  rw [TableSeats.eligible_iff]
  constructor
  · rintro ⟨st, hst, hel⟩
    refine ⟨st, hst, ?_⟩
    simp only [SeatState.eligibleForNextHand, Bool.and_eq_true, decide_eq_true_eq] at hel
    exact hel.1
  · rintro ⟨st, hst, hpos⟩
    refine ⟨st, hst, ?_⟩
    simp only [SeatState.eligibleForNextHand, Bool.and_eq_true, decide_eq_true_eq]
    exact ⟨hpos, ht.active p st hst⟩

theorem refresh_open (h : t.state ≠ .closed) : t.refreshBetweenHandState.state ≠ .closed := by
  unfold refreshBetweenHandState
  split
  · exact h
  · dsimp only
    split
    · simp
    · split
      · split <;> simp
      · split <;> simp
      · simp

/-! ## A player joins -/

/-- A player takes a free seat between two hands. -/
structure Enters (t : TableLifecycle) (player : PlayerId) (seat : SeatId) (stack : Nat) (t' : TableLifecycle) : Prop where
  idle : t.activeHand = none
  idle' : t'.activeHand = none
  positive : 0 < stack
  free : t.seats.seat seat = none
  stranger : ∀ p, t.playerAt p ≠ some player
  size : t'.tableSize = t.tableSize
  pending : t'.pending = t.pending
  number : t'.nextHandNumber = t.nextHandNumber
  others : ∀ q, q ≠ seat → t'.seats.seat q = t.seats.seat q
  taken : ∃ st, t'.seats.seat seat = some st ∧ st.playerId = player ∧ st.stack = stack

theorem Enters.playerAt (h : Enters t player seat stack t') (q : SeatId) :
    t'.playerAt q = if q = seat then some player else t.playerAt q := by
  unfold TableLifecycle.playerAt
  by_cases hq : q = seat
  · obtain ⟨st, hst, hplayer, _⟩ := h.taken
    rw [if_pos hq, hq, hst]
    exact congrArg some hplayer
  · rw [if_neg hq, h.others q hq]

theorem Seats.enters (hs : Seats t player seat stack t') : Enters t player seat stack t' := by
  obtain ⟨seats, reservations, hocc, ht'⟩ := hs.taken
  obtain ⟨_, hfree, hnew, _, hseat⟩ := TableSeats.occupy_ok hocc
  have hframe := refresh_frame { t with seats := seats, reservations := reservations }
  rw [← ht'] at hframe
  have hat : ∀ q, t'.seats.seat q = if q = seat then some (.seated player stack) else t.seats.seat q := by
    intro q
    rw [hframe]
    exact hseat q
  refine ⟨hs.idle, by rw [hframe]; exact hs.idle, hs.positive, hfree, ?_, by rw [hframe], by rw [hframe], by rw [hframe], ?_, ?_⟩
  · intro p hp
    obtain ⟨st, hst, he⟩ := playerAt_some.mp hp
    exact hs.stranger p st hst he
  · intro q hq
    rw [hat q, if_neg hq]
  · exact ⟨_, by rw [hat seat, if_pos rfl], rfl, rfl⟩

theorem occupy_reservations (h : t.occupy player seat stack = (.ok (), t')) : t'.reservations = t.reservations.erase seat := by
  unfold occupy at h
  split at h
  · cases h
  split at h
  · cases h
  split at h
  · cases h
  split at h
  · cases h
  split at h
  · cases h
  split at h
  · cases h
  split at h
  · cases h
  split at h
  · cases h
  · cases h
    rw [refresh_frame]

/-- The seat that `reserve` books, `occupy` gives back. -/
theorem join_givesBack (h : t.join player seat stack = (.ok (), t')) :
    t'.reservations = (t.reservations.insert seat player).erase seat := by
  unfold join at h
  split at h
  · cases h
  rcases t.reserve_cases player seat with ⟨error, he⟩ | ⟨he, _⟩
  · rw [he] at h
    cases h
  · rw [he] at h
    dsimp only at h
    rcases ho : TableLifecycle.occupy { t with reservations := t.reservations.insert seat player } player seat stack
      with ⟨result, left⟩
    rw [ho] at h
    cases result with
    | error error => cases h
    | ok u =>
      cases h
      exact occupy_reservations ho

theorem join_unreserved (ht : t.reservations = .empty) (h : t.join player seat stack = (.ok (), t')) :
    t'.reservations = .empty := by
  refine (join_givesBack h).trans (OrdMap.ext_find ?_)
  intro q
  rw [OrdMap.find_erase, OrdMap.find_insert, ht]
  by_cases hq : q = seat <;> simp [hq]

theorem join_enters (ht : t.Plain) (h : t.join player seat stack = (.ok (), t')) :
    t'.Plain ∧ Enters t player seat stack t' := by
  rcases t.join_cases player seat stack with ⟨error, reservations, he⟩ | ⟨left, he, hseats⟩
  · rw [he] at h
    cases h
  · rw [he] at h
    cases h
    have henters := hseats.enters
    obtain ⟨hsound, _, hopen⟩ := ht.toSound.taken hseats
    refine ⟨⟨hsound, hopen, join_unreserved ht.unreserved he, ?_, by rw [henters.pending]; exact ht.leaving⟩, henters⟩
    intro q st hst
    by_cases hq : q = seat
    · obtain ⟨seats, reservations, hocc, hleft⟩ := hseats.taken
      have hseat := (TableSeats.occupy_ok hocc).2.2.2.2 q
      rw [hleft, refresh_seats] at hst
      rw [if_pos hq, hst] at hseat
      cases hseat
      rfl
    · rw [henters.others q hq] at hst
      exact ht.active q st hst

theorem joinWithEntry_enters (ht : t.Plain) (h : t.joinWithEntry player seat stack .postLiveBigBlind = (.ok (), t')) :
    t'.Plain ∧ Enters t player seat stack t' := by
  unfold joinWithEntry at h
  rcases hj : t.join player seat stack with ⟨result, left⟩
  rw [hj] at h
  cases result with
  | error error => cases h
  | ok u =>
    obtain ⟨hplain, henters⟩ := join_enters ht hj
    dsimp only at h
    split_ifs at h with hnumber
    · cases h
      have hmodify : ∀ q, (left.modifySeat seat (entering .postLiveBigBlind) fun _ => rfl).seats.seat q =
          if q = seat then (left.seats.seat q).map (entering .postLiveBigBlind) else left.seats.seat q := by
        intro q
        exact @TableSeats.seat_modify left.seats seat q (entering .postLiveBigBlind) fun _ => rfl
      have hidle : (left.modifySeat seat (entering .postLiveBigBlind) fun _ => rfl).activeHand = none := henters.idle'
      have hsound : (left.modifySeat seat (entering .postLiveBigBlind) fun _ => rfl).refreshBetweenHandState.Sound := by
        refine Roster.refresh ?_ hidle hplain.isOpen (hplain.idle henters.idle')
        exact hplain.modify fun st _ => by simp [SeatState.Stays, entering]
      refine ⟨⟨hsound, refresh_open hplain.isOpen, by rw [refresh_frame]; exact hplain.unreserved, ?_, ?_⟩, ?_⟩
      · intro q st hst
        rw [refresh_seats, hmodify] at hst
        split_ifs at hst with hq
        · obtain ⟨st', _, rfl⟩ := Option.map_eq_some_iff.mp hst
          rfl
        · exact hplain.active q st hst
      · rw [refresh_frame]
        exact hplain.leaving
      · refine ⟨henters.idle, by rw [refresh_frame]; exact hidle, henters.positive, henters.free, henters.stranger, ?_,
          ?_, ?_, ?_, ?_⟩
        · rw [refresh_frame]
          exact henters.size
        · rw [refresh_frame]
          exact henters.pending
        · rw [refresh_frame]
          exact henters.number
        · intro q hq
          rw [refresh_seats, hmodify, if_neg hq]
          exact henters.others q hq
        · obtain ⟨st, hst, hplayer, hstack⟩ := henters.taken
          refine ⟨entering .postLiveBigBlind st, ?_, hplayer, hstack⟩
          rw [refresh_seats, hmodify, if_pos rfl, hst]
          rfl
    · cases h
      exact ⟨hplain, henters⟩

/-! ## A player leaves -/

theorem applyTransition_leave (t : TableLifecycle) (player : PlayerId) (q : SeatId) :
    (t.applyTransition player .leave).seats.seat q = if t.playerAt q = some player then none else t.seats.seat q := by
  unfold applyTransition
  cases hfind : t.seats.seatForPlayer player with
  | none =>
    rw [if_neg]
    intro hq
    rw [seatForPlayer_iff.mpr hq] at hfind
    cases hfind
  | some p =>
    have hp := seatForPlayer_iff.mp hfind
    dsimp only
    rw [TableSeats.seat_vacate]
    by_cases hq : q = p
    · rw [if_pos hq, if_pos (hq ▸ hp)]
    · rw [if_neg hq, if_neg (fun hq' => hq (playerAt_inj hq' hp))]

theorem Plain.vacated (ht : t.Plain) (hidle : t.activeHand = none) (player : PlayerId) :
    (t.applyTransition player .leave).refreshBetweenHandState.Plain := by
  have hframe := applyTransition_frame t player .leave
  have hidle' : (t.applyTransition player .leave).activeHand = none := by rw [hframe]; exact hidle
  have hopen : (t.applyTransition player .leave).state ≠ .closed := by rw [hframe]; exact ht.isOpen
  have hsound : (t.applyTransition player .leave).refreshBetweenHandState.Sound := by
    refine Roster.refresh (ht.applyTransition player .leave) hidle' hopen ?_
    rw [hframe]
    exact ht.idle hidle
  refine ⟨hsound, refresh_open hopen, ?_, ?_, ?_⟩
  · rw [refresh_frame, hframe]
    exact ht.unreserved
  · intro q st hst
    rw [refresh_seats, applyTransition_leave] at hst
    split at hst
    · cases hst
    · exact ht.active q st hst
  · rw [refresh_frame, hframe]
    exact ht.leaving

/-- A request to leave is refused, noted for the end of the hand, or granted at once. -/
theorem requestLeave_cases (t : TableLifecycle) (player : PlayerId) :
    (∃ error, t.requestLeave player = (.error error, t)) ∨
      (∃ p, t.playerAt p = some player ∧ t.handActive = true ∧ t.requestLeave player = (.ok (), { t with
        pending := t.pending.insert player .leave })) ∨
      ∃ p, t.playerAt p = some player ∧ t.activeHand = none ∧
        t.requestLeave player = (.ok (), (t.applyTransition player .leave).refreshBetweenHandState) := by
  rcases t.requestTransition_cases player .leave with ⟨error, he⟩ | ⟨p, hfind, hcases⟩
  · exact Or.inl ⟨error, he⟩
  have hp := seatForPlayer_iff.mp hfind
  rcases hcases with ⟨hactive, hnoted, he⟩ | ⟨hactive, _, he⟩ | ⟨hidle, _, he⟩
  · refine Or.inr (Or.inl ⟨p, hp, hactive, ?_⟩)
    rw [OrdMap.insert_same hnoted]
    exact he
  · exact Or.inr (Or.inl ⟨p, hp, hactive, he⟩)
  · exact Or.inr (Or.inr ⟨p, hp, hidle, he⟩)

theorem Plain.noted (ht : t.Plain) (hactive : t.handActive = true) (player : PlayerId) :
    Plain { t with pending := t.pending.insert player .leave } := by
  have hnone : t.activeHand ≠ none := by
    intro hidle
    rw [handActive, hidle] at hactive
    cases hactive
  refine ⟨⟨⟨ht.size, ht.seats, ht.button, ht.counted⟩, ht.running, fun hidle => absurd hidle hnone,
    fun hidle => absurd hidle hnone, fun hidle => absurd hidle hnone, fun hidle => absurd hidle hnone⟩,
    ht.isOpen, ht.unreserved, ht.active, ?_⟩
  intro other transition hf
  have hcases : (t.pending.insert player .leave).find? other = some transition := hf
  rw [OrdMap.find_insert] at hcases
  split at hcases
  · cases hcases
    rfl
  · exact ht.leaving other transition hcases

/-! ## A hand begins -/

/-- Nobody waits for a blind, so nobody is promoted. -/
theorem Plain.unpromoted (ht : t.Plain) : t.promoteNaturalBigBlindWaiter = t := by
  have hwaiters : t.waiters = [] := by
    unfold waiters
    rw [List.map_eq_nil_iff, List.filter_eq_nil_iff]
    rintro ⟨p, st⟩ hmem
    have hactive := ht.active p st (t.seats.mem_occupied.mp hmem)
    simp [hactive]
  refine promote_none ?_
  unfold promoted
  rw [hwaiters]
  rfl

/-- The hand deals in every player who has chips. -/
structure Deals (t : TableLifecycle) (start : HandStart) (t' : TableLifecycle) : Prop where
  idle : t.activeHand = none
  enough : 2 ≤ t.eligibleCount
  dealt : start = t.handStart
  active : t'.activeHand = some start
  pending : t'.pending = t.pending
  size : t'.tableSize = t.tableSize
  seat : ∀ q, t'.seats.seat q = if t.seats.eligible q = true then (t.seats.seat q).map dealIn else t.seats.seat q

theorem Deals.playerAt {start : HandStart} (h : Deals t start t') (q : SeatId) : t'.playerAt q = t.playerAt q := by
  unfold TableLifecycle.playerAt
  rw [h.seat]
  split
  · rw [Option.map_map]
    rfl
  · rfl

theorem Deals.chips {start : HandStart} (h : Deals t start t') {q : SeatId} (hst : t'.seats.seat q = some st) :
    ∃ st', t.seats.seat q = some st' ∧ st'.stack = st.stack ∧ st'.playerId = st.playerId := by
  rw [h.seat] at hst
  split at hst
  · obtain ⟨st', hst', rfl⟩ := Option.map_eq_some_iff.mp hst
    exact ⟨st', hst', rfl, rfl⟩
  · exact ⟨st, hst, rfl, rfl⟩

theorem beginHand_deals {start : HandStart} (ht : t.Plain) (h : t.beginHand = (.ok start, t')) :
    t'.Plain ∧ Deals t start t' := by
  have hpromoted := ht.unpromoted
  rcases t.beginHand_cases with ⟨_, error, he⟩ | ⟨hidle, hopen, ⟨_, he⟩ | ⟨hcount, he⟩⟩
  · rw [he] at h
    cases h
  · rw [he] at h
    cases h
  · rw [hpromoted] at hcount he
    rw [he] at h
    cases h
    have hdeals : Deals t t.handStart t.dealHand := ⟨hidle, hcount, rfl, rfl, rfl, rfl, seat_dealHand t⟩
    have hsound : t.dealHand.Sound := by
      have hstep := ht.toSound.step .beginHand
      rw [LifecycleOp.apply, he] at hstep
      exact hstep
    refine ⟨⟨hsound, by simp [dealHand], ht.unreserved, ?_, ht.leaving⟩, hdeals⟩
    intro q st hst
    rw [hdeals.seat] at hst
    split at hst
    · obtain ⟨st', hst', rfl⟩ := Option.map_eq_some_iff.mp hst
      exact ht.active q st' hst'
    · exact ht.active q st hst

/-! ## A hand ends -/

theorem foldl_leave (l : List (PlayerId × PendingSeatTransition)) (hl : ∀ e ∈ l, e.2 = .leave) (t : TableLifecycle) (q : SeatId) :
    (l.foldl (fun t (e : PlayerId × PendingSeatTransition) => t.applyTransition e.1 e.2) t).seats.seat q =
      if (t.playerAt q).any (fun player => l.any fun e => e.1 = player) = true then none else t.seats.seat q := by
  induction l generalizing t with
  | nil => cases t.playerAt q <;> rfl
  | cons e rest ih =>
    rw [List.foldl_cons, hl e List.mem_cons_self, ih (fun e he => hl e (List.mem_cons_of_mem _ he)), applyTransition_leave]
    have hplayer : (t.applyTransition e.1 .leave).playerAt q = if t.playerAt q = some e.1 then none else t.playerAt q := by
      by_cases hq : t.playerAt q = some e.1
      · rw [if_pos hq, playerAt_none, applyTransition_leave, if_pos hq]
      · rw [if_neg hq]
        exact congrArg (Option.map _) ((applyTransition_leave t e.1 q).trans (if_neg hq))
    rw [hplayer]
    cases hq : t.playerAt q with
    | none => simp
    | some player =>
      by_cases he : player = e.1
      · subst he
        simp
      · have hne : some player ≠ some e.1 := fun heq => he (Option.some.inj heq)
        rw [if_neg hne, Option.any_some, Option.any_some, List.any_cons, decide_eq_false (Ne.symm he), Bool.false_or]
        rw [if_neg hne]

/-- The seats after the hand: stacks as reported, and those who asked to leave gone. -/
structure Settles (t : TableLifecycle) (finalStacks : List (SeatId × Nat)) (t' : TableLifecycle) : Prop where
  active : t.handActive = true
  idle : t'.activeHand = none
  pending : t'.pending = .empty
  size : t'.tableSize = t.tableSize
  seat : ∀ q, t'.seats.seat q = if t.leavingAt q = true then none else
    match finalStacks.lookup q with
    | some stack => (t.seats.seat q).map (settleSeat stack)
    | none => t.seats.seat q

theorem Settles.playerAt (h : Settles t finalStacks t') (q : SeatId) :
    t'.playerAt q = if t.leavingAt q = true then none else t.playerAt q := by
  unfold TableLifecycle.playerAt
  rw [h.seat]
  split
  · rfl
  · cases finalStacks.lookup q with
    | none => rfl
    | some stack =>
      dsimp only
      rw [Option.map_map]
      rfl

/-- What the reported stacks are collected into. -/
theorem reported_ok {expected actual left : OrdMap SeatId Nat} {l : List (SeatId × Nat)}
    (h : reported expected l actual = .ok left) :
    (∀ q, left.find? q = (l.lookup q).or (actual.find? q)) ∧ (l.map (·.1)).Nodup ∧
      (∀ e ∈ l, actual.contains e.1 = false) ∧ ∀ e ∈ l, expected.contains e.1 = true := by
  induction l generalizing actual with
  | nil =>
    cases h
    exact ⟨fun q => rfl, List.nodup_nil, fun e he => (by cases he), fun e he => (by cases he)⟩
  | cons e rest ih =>
    unfold reported at h
    split_ifs at h with hold hout
    obtain ⟨hfind, hnodup, hfresh, hin⟩ := ih h
    have hkeep : ∀ x ∈ rest, x.1 ≠ e.1 ∧ actual.contains x.1 = false := by
      intro x hx
      have hnew := hfresh x hx
      rw [OrdMap.contains, OrdMap.find_insert] at hnew
      split_ifs at hnew with hsame
      · cases hnew
      · exact ⟨hsame, hnew⟩
    refine ⟨?_, ?_, ?_, ?_⟩
    · intro q
      rw [hfind, OrdMap.find_insert, OrdMap.lookup_cons_if]
      by_cases hq : q = e.1
      · rw [if_pos hq, if_pos hq]
        have hnone : rest.lookup q = none := by
          rw [List.lookup_eq_none_iff]
          intro x hx
          exact bne_iff_ne.mpr fun he => (hkeep x hx).1 (he.symm.trans hq)
        rw [hnone]
        rfl
      · rw [if_neg hq, if_neg hq]
    · rw [List.map_cons, List.nodup_cons]
      refine ⟨?_, hnodup⟩
      intro hmem
      obtain ⟨x, hx, he⟩ := List.mem_map.mp hmem
      exact (hkeep x hx).1 he
    · intro x hx
      rcases List.mem_cons.mp hx with rfl | hx
      · simpa using hold
      · exact (hkeep x hx).2
    · intro x hx
      rcases List.mem_cons.mp hx with rfl | hx
      · simpa using hout
      · exact hin x hx

/-- A hand's stacks are refused, or written into the seats. -/
theorem completeHand_writes (t : TableLifecycle) (finalStacks : List (SeatId × Nat)) :
    (∃ error, t.completeHand finalStacks = (.error error, t)) ∨ ∃ (start : HandStart) (actual : OrdMap SeatId Nat),
      t.activeHand = some start ∧ (∀ q, actual.find? q = finalStacks.lookup q) ∧
      t.completeHand finalStacks = (.ok (), (applyPending { t with
        seats := actual.entries.foldl (fun seats (seat, stack) => seats.modify seat (settleSeat stack) fun _ => rfl) t.seats
        activeHand := none }).refreshBetweenHandState) := by
  unfold completeHand
  cases hstart : t.activeHand with
  | none => exact Or.inl ⟨_, rfl⟩
  | some start =>
    dsimp only
    cases hactual : reported (start.seatStacks.foldl (fun m (x : SeatId × Nat) => m.insert x.1 x.2) .empty)
      finalStacks .empty with
    | error error => exact Or.inl ⟨_, rfl⟩
    | ok actual =>
      dsimp only
      split
      · exact Or.inl ⟨_, rfl⟩
      split
      · exact Or.inl ⟨_, rfl⟩
      split
      · exact Or.inl ⟨_, rfl⟩
      split
      · exact Or.inl ⟨_, rfl⟩
      · exact Or.inr ⟨start, actual, rfl, fun q => ((reported_ok hactual).1 q).trans Option.or_none, rfl⟩

/-- The seats once the stacks are written. -/
theorem seat_settled {seats : TableSeats} {actual : OrdMap SeatId Nat} {finalStacks : List (SeatId × Nat)}
    (hfind : ∀ q, actual.find? q = finalStacks.lookup q) (q : SeatId) :
    (actual.entries.foldl (fun seats (seat, stack) => seats.modify seat (settleSeat stack) fun _ => rfl) seats).seat q =
      match finalStacks.lookup q with
      | some stack => (seats.seat q).map (settleSeat stack)
      | none => seats.seat q := by
  obtain ⟨_, hseat⟩ := TableSeats.seat_foldl_modify settleSeat (fun _ _ => rfl) actual.entries OrdMap.nodup_keys seats
  refine (hseat q).trans ?_
  rw [show actual.entries.lookup q = finalStacks.lookup q from hfind q]
  cases finalStacks.lookup q <;> rfl

/-- Where all that is noted is who leaves, those are gone. -/
theorem seat_applyPending (hleave : ∀ player transition, t.pending.find? player = some transition → transition = .leave)
    (q : SeatId) : t.applyPending.seats.seat q = if t.leavingAt q = true then none else t.seats.seat q := by
  have hentries : ∀ e ∈ t.pending.entries, e.2 = .leave := by
    rintro ⟨player, transition⟩ he
    exact hleave player transition (OrdMap.mem_entries.mp he)
  have hfold := foldl_leave t.pending.entries hentries { t with pending := .empty } q
  have hkeys : (t.playerAt q).any (fun player => t.pending.entries.any fun e => decide (e.1 = player)) = t.leavingAt q := by
    unfold leavingAt
    cases t.playerAt q with
    | none => rfl
    | some player =>
      rw [Option.any_some, Option.any_some, Bool.eq_iff_iff, List.any_eq_true, OrdMap.contains_iff]
      constructor
      · rintro ⟨⟨other, transition⟩, hmem, he⟩
        obtain rfl : other = player := of_decide_eq_true he
        exact ⟨transition, OrdMap.mem_entries.mp hmem⟩
      · rintro ⟨transition, hf⟩
        exact ⟨(player, transition), OrdMap.mem_entries.mpr hf, by simp⟩
  have hat : ({ t with pending := .empty } : TableLifecycle).playerAt q = t.playerAt q := rfl
  rw [hat, hkeys] at hfold
  exact hfold

theorem completeHand_settles {finalStacks : List (SeatId × Nat)} (ht : t.Plain)
    (h : t.completeHand finalStacks = (.ok (), t')) : t'.Plain ∧ Settles t finalStacks t' := by
  have hsound : t'.Sound := by
    have hstep := ht.toSound.step (.completeHand finalStacks)
    rw [LifecycleOp.apply, h] at hstep
    exact hstep
  rcases t.completeHand_writes finalStacks with ⟨_, he⟩ | ⟨start, actual, hstart, hfind, he⟩
  · rw [he] at h
    cases h
  rw [he] at h
  obtain rfl := (Prod.mk.inj h).2
  clear h he
  have hlookup := @seat_settled t.seats actual finalStacks hfind
  generalize hsettled : ({ t with
    seats := actual.entries.foldl (fun seats (x : SeatId × Nat) => seats.modify x.1 (settleSeat x.2) fun _ => rfl) t.seats
    activeHand := none } : TableLifecycle) = settled at *
  have hseat : ∀ q, settled.seats.seat q = match finalStacks.lookup q with
      | some stack => (t.seats.seat q).map (settleSeat stack)
      | none => t.seats.seat q := by
    intro q
    rw [← hsettled]
    exact hlookup q
  have hpending : settled.pending = t.pending := by rw [← hsettled]
  have hleaving : ∀ q, settled.leavingAt q = t.leavingAt q := by
    intro q
    unfold leavingAt playerAt
    rw [hseat, hpending]
    split
    · rw [Option.map_map]
      rfl
    · rfl
  have happlied : ∀ q, settled.applyPending.seats.seat q = if t.leavingAt q = true then none else settled.seats.seat q := by
    intro q
    rw [seat_applyPending (fun player transition hf => ht.leaving player transition (hpending ▸ hf)), hleaving]
  have hframe := applyPending_frame settled
  have hopen : settled.applyPending.state ≠ .closed := by
    rw [hframe, ← hsettled]
    exact ht.isOpen
  refine ⟨⟨hsound, refresh_open hopen, ?_, ?_, ?_⟩, ⟨by rw [handActive, hstart]; rfl, ?_, ?_, ?_, ?_⟩⟩
  · rw [refresh_frame, hframe, ← hsettled]
    exact ht.unreserved
  · intro q st hst
    rw [refresh_seats, happlied, hseat] at hst
    split_ifs at hst
    split at hst
    · obtain ⟨st', hst', rfl⟩ := Option.map_eq_some_iff.mp hst
      exact ht.active q st' hst'
    · exact ht.active q st hst
  · intro player transition hf
    rw [refresh_frame, hframe] at hf
    cases hf
  · rw [refresh_frame, hframe, ← hsettled]
  · rw [refresh_frame, hframe]
  · rw [refresh_frame, hframe, ← hsettled]
  · intro q
    rw [refresh_seats, happlied, hseat]

end plain

end TableLifecycle

end OpenFelt
