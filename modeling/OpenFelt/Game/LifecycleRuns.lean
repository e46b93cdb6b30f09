/-
  OpenFelt.Game.LifecycleRuns — every order of calls on a table's lifecycle.

  `Moves` says once what a call can do; `Sound` holds of every table reached.
-/

import OpenFelt.Game.TableLifecycle

namespace OpenFelt

/-- A call on the lifecycle. -/
inductive LifecycleOp where
  | reserve (player : PlayerId) (seat : SeatId)
  | cancelReservation (player : PlayerId) (seat : SeatId)
  | occupy (player : PlayerId) (seat : SeatId) (stack : Nat)
  | join (player : PlayerId) (seat : SeatId) (stack : Nat)
  | joinWithEntry (player : PlayerId) (seat : SeatId) (stack : Nat) (entry : RingEntryChoice)
  | recordMissedBlind (player : PlayerId) (missed : MissedBlind)
  | requestReturnWithEntry (player : PlayerId) (entry : RingEntryChoice)
  | setConnection (player : PlayerId) (connection : ConnectionState)
  | requestSitOut (player : PlayerId)
  | requestReturn (player : PlayerId)
  | requestLeave (player : PlayerId)
  | beginHand
  | completeHand (finalStacks : List (SeatId × Nat))
  | close
  deriving DecidableEq, Repr

namespace LifecycleOp

def apply : LifecycleOp → TableLifecycle → TableLifecycle
  | reserve player seat, t => (t.reserve player seat).2
  | cancelReservation player seat, t => (t.cancelReservation player seat).2
  | occupy player seat stack, t => (t.occupy player seat stack).2
  | join player seat stack, t => (t.join player seat stack).2
  | joinWithEntry player seat stack entry, t => (t.joinWithEntry player seat stack entry).2
  | recordMissedBlind player missed, t => (t.recordMissedBlind player missed).2
  | requestReturnWithEntry player entry, t => (t.requestReturnWithEntry player entry).2
  | setConnection player connection, t => (t.setConnection player connection).2
  | requestSitOut player, t => (t.requestSitOut player).2
  | requestReturn player, t => (t.requestReturn player).2
  | requestLeave player, t => (t.requestLeave player).2
  | beginHand, t => t.beginHand.2
  | completeHand finalStacks, t => (t.completeHand finalStacks).2
  | close, t => t.close.2

/-- The call seated a player. -/
def seats (op : LifecycleOp) (t : TableLifecycle) : Bool :=
  match op with
  | occupy player seat stack => (t.occupy player seat stack).1.isOk
  | join player seat stack => (t.join player seat stack).1.isOk
  | joinWithEntry player seat stack entry => (t.joinWithEntry player seat stack entry).1.isOk
  | _ => false

end LifecycleOp

namespace TableLifecycle

def run (t : TableLifecycle) (ops : List LifecycleOp) : TableLifecycle := ops.foldl (fun t op => op.apply t) t

/-! ## What a call does -/

/-- A new player on a free seat. -/
structure Seats (t : TableLifecycle) (player : PlayerId) (seat : SeatId) (stack : Nat) (t' : TableLifecycle) : Prop where
  idle : t.activeHand = none
  isOpen : t.state ≠ .closed
  positive : 0 < stack
  free : t.seats.seat seat = none
  stranger : ∀ p st, t.seats.seat p = some st → st.playerId ≠ player
  taken : ∃ seats reservations, t.seats.occupy seat (.seated player stack) = .ok seats ∧
    t' = refreshBetweenHandState { t with seats := seats, reservations := reservations }

/-- Everything a call can leave. -/
inductive Moves (t : TableLifecycle) : LifecycleOp → TableLifecycle → Prop
  | same (op : LifecycleOp) : op.seats t = false → Moves t op t
  | booked (op : LifecycleOp) (reservations : OrdMap SeatId PlayerId) : op.seats t = false →
      Moves t op { t with reservations := reservations }
  | seated (op : LifecycleOp) {player : PlayerId} {seat : SeatId} {stack : Nat} {t' : TableLifecycle} :
      op.seats t = true → Seats t player seat stack t' → Moves t op t'
  | entered {player : PlayerId} {seat : SeatId} {stack : Nat} (entry : RingEntryChoice) {t' : TableLifecycle} :
      (LifecycleOp.joinWithEntry player seat stack entry).seats t = true → Seats t player seat stack t' → 1 < t.nextHandNumber →
      Moves t (.joinWithEntry player seat stack entry)
        (t'.modifySeat seat (entering entry) fun _ => rfl).refreshBetweenHandState
  | owed (player : PlayerId) (missed : MissedBlind) (seat : SeatId) : t.activeHand = none → t.state ≠ .closed →
      Moves t (.recordMissedBlind player missed)
        (t.modifySeat seat (fun st => { st with blindObligation := st.blindObligation.missed missed }) fun _ => rfl)
  | linked (player : PlayerId) (connection : ConnectionState) (seat : SeatId) : Moves t (.setConnection player connection)
      (t.modifySeat seat (fun st => { st with connection := connection }) fun _ => rfl)
  | returned (player : PlayerId) (entry : RingEntryChoice) (seat : SeatId) : t.activeHand = none → t.state ≠ .closed →
      Moves t (.requestReturnWithEntry player entry) (t.modifySeat seat
        (fun st => { st with tableParticipation := st.blindObligation.reentry entry }) fun _ => rfl).refreshBetweenHandState
  | passed (op : LifecycleOp) (player : PlayerId) (transition : PendingSeatTransition) : op.seats t = false →
      t.activeHand = none → t.state ≠ .closed → Moves t op (t.applyTransition player transition).refreshBetweenHandState
  | queued (op : LifecycleOp) (player : PlayerId) (transition : PendingSeatTransition) : op.seats t = false →
      t.handActive = true → Moves t op { t with pending := t.pending.insert player transition }
  | short : t.activeHand = none → t.state ≠ .closed → t.promoteNaturalBigBlindWaiter.eligibleCount < 2 →
      Moves t .beginHand { t.promoteNaturalBigBlindWaiter with
        state := if t.promoteNaturalBigBlindWaiter.seats.occupiedCount = 0 then .waiting else .paused }
  | dealt : t.activeHand = none → t.state ≠ .closed → 2 ≤ t.promoteNaturalBigBlindWaiter.eligibleCount →
      t.beginHand.1 = .ok t.promoteNaturalBigBlindWaiter.handStart →
      Moves t .beginHand t.promoteNaturalBigBlindWaiter.dealHand
  | completed (finalStacks : List (SeatId × Nat)) (start : HandStart) (actual : OrdMap SeatId Nat) :
      t.activeHand = some start → Moves t (.completeHand finalStacks)
        (applyPending { t with
          seats := actual.entries.foldl (fun seats (seat, stack) => seats.modify seat (settleSeat stack) fun _ => rfl) t.seats
          activeHand := none }).refreshBetweenHandState
  | closed : t.activeHand = none → Moves t .close { t with state := .closed, reservations := .empty, pending := .empty }

section moves
variable {t t' : TableLifecycle} {player : PlayerId} {seat : SeatId} {stack : Nat}

theorem ensureOpen_ok (h : t.ensureOpen = .ok ()) : t.state ≠ .closed := by
  intro hc
  rw [ensureOpen, if_pos hc] at h
  cases h

theorem activeHand_none (h : ¬ t.handActive = true) : t.activeHand = none := by
  simpa [handActive] using h

/-- A reservation is refused, or recorded at a free seat. -/
theorem reserve_cases (t : TableLifecycle) (player : PlayerId) (seat : SeatId) :
    (∃ error, t.reserve player seat = (.error error, t)) ∨
      (t.reserve player seat = (.ok (), { t with reservations := t.reservations.insert seat player }) ∧
        t.state ≠ .closed) := by
  unfold reserve
  cases ho : t.ensureOpen with
  | error error => exact Or.inl ⟨error, rfl⟩
  | ok u =>
    cases hs : t.ensureSeat seat with
    | error error => exact Or.inl ⟨error, rfl⟩
    | ok u =>
      dsimp only
      split
      · exact Or.inl ⟨_, rfl⟩
      split
      · exact Or.inl ⟨_, rfl⟩
      split
      · exact Or.inl ⟨_, rfl⟩
      · exact Or.inr ⟨rfl, ensureOpen_ok ho⟩

theorem occupy_cases (t : TableLifecycle) (player : PlayerId) (seat : SeatId) (stack : Nat) :
    (∃ error, t.occupy player seat stack = (.error error, t)) ∨
      ∃ t', t.occupy player seat stack = (.ok (), t') ∧ Seats t player seat stack t' := by
  unfold occupy
  cases ho : t.ensureOpen with
  | error error => exact Or.inl ⟨error, rfl⟩
  | ok u =>
    dsimp only
    split
    · exact Or.inl ⟨_, rfl⟩
    rename_i hidle
    split
    · exact Or.inl ⟨_, rfl⟩
    rename_i hpos
    cases hs : t.ensureSeat seat with
    | error error => exact Or.inl ⟨error, rfl⟩
    | ok u =>
      dsimp only
      split
      · exact Or.inl ⟨_, rfl⟩
      rename_i hnew
      cases hr : t.reservations.find? seat with
      | none => exact Or.inl ⟨_, rfl⟩
      | some owner =>
        dsimp only
        split
        · exact Or.inl ⟨_, rfl⟩
        cases hocc : t.seats.occupy seat (.seated player stack) with
        | error error => exact Or.inl ⟨_, rfl⟩
        | ok seats =>
          have hstranger := t.seats.seatForPlayer_none.mp (by simpa using hnew)
          have hfree : t.seats.seat seat = none := by
            unfold TableSeats.occupy at hocc
            split at hocc
            · split at hocc
              · cases hocc
              · rename_i hfree; simpa using hfree
            · cases hocc
          exact Or.inr ⟨_, rfl, activeHand_none hidle, ensureOpen_ok ho, Nat.pos_of_ne_zero hpos, hfree, hstranger,
            seats, _, hocc, rfl⟩

theorem Seats.unreserve {reservations : OrdMap SeatId PlayerId}
    (h : Seats { t with reservations := reservations } player seat stack t') : Seats t player seat stack t' :=
  ⟨h.idle, h.isOpen, h.positive, h.free, h.stranger, h.taken⟩

theorem join_cases (t : TableLifecycle) (player : PlayerId) (seat : SeatId) (stack : Nat) :
    (∃ error reservations, t.join player seat stack = (.error error, { t with reservations := reservations })) ∨
      ∃ t', t.join player seat stack = (.ok (), t') ∧ Seats t player seat stack t' := by
  unfold join
  split
  · exact Or.inl ⟨_, t.reservations, rfl⟩
  rcases t.reserve_cases player seat with ⟨error, he⟩ | ⟨he, _⟩
  · rw [he]; exact Or.inl ⟨error, t.reservations, rfl⟩
  · rw [he]
    dsimp only
    rcases occupy_cases { t with reservations := t.reservations.insert seat player } player seat stack with
      ⟨error, ho⟩ | ⟨t', ho, hseats⟩
    · rw [ho]; exact Or.inl ⟨error, _, rfl⟩
    · rw [ho]; exact Or.inr ⟨t', rfl, hseats.unreserve⟩

theorem joinWithEntry_cases (t : TableLifecycle) (player : PlayerId) (seat : SeatId) (stack : Nat) (entry : RingEntryChoice) :
    (∃ error reservations, t.joinWithEntry player seat stack entry = (.error error, { t with reservations := reservations })) ∨
      ∃ t', Seats t player seat stack t' ∧
        ((t.nextHandNumber ≤ 1 ∧ t.joinWithEntry player seat stack entry = (.ok (), t')) ∨
          (1 < t.nextHandNumber ∧ t.joinWithEntry player seat stack entry =
            (.ok (), (t'.modifySeat seat (entering entry) fun _ => rfl).refreshBetweenHandState))) := by
  unfold joinWithEntry
  rcases t.join_cases player seat stack with ⟨error, reservations, he⟩ | ⟨t', he, hseats⟩
  · rw [he]; exact Or.inl ⟨error, reservations, rfl⟩
  · have hnumber : t'.nextHandNumber = t.nextHandNumber := by
      obtain ⟨_, _, _, rfl⟩ := hseats.taken
      unfold refreshBetweenHandState
      split <;> rfl
    rw [he]
    dsimp only
    rw [hnumber]
    refine Or.inr ⟨t', hseats, ?_⟩
    by_cases hdealt : 1 < t.nextHandNumber
    · rw [if_pos hdealt]; exact Or.inr ⟨hdealt, rfl⟩
    · rw [if_neg hdealt]; exact Or.inl ⟨Nat.le_of_not_lt hdealt, rfl⟩

/-- A request is refused, noted for the end of the hand unless the player leaves anyway, or granted at once. -/
theorem requestTransition_cases (t : TableLifecycle) (player : PlayerId) (transition : PendingSeatTransition) :
    (∃ error, t.requestTransition player transition = (.error error, t)) ∨
      ∃ seat, t.seats.seatForPlayer player = some seat ∧
        ((t.handActive = true ∧ t.pending.find? player = some .leave ∧ t.requestTransition player transition = (.ok (), t)) ∨
          (t.handActive = true ∧ t.pending.find? player ≠ some .leave ∧ t.requestTransition player transition =
            (.ok (), { t with pending := t.pending.insert player transition })) ∨
          (t.activeHand = none ∧ t.state ≠ .closed ∧ t.requestTransition player transition =
            (.ok (), (t.applyTransition player transition).refreshBetweenHandState))) := by
  unfold requestTransition
  cases ho : t.ensureOpen with
  | error error => exact Or.inl ⟨error, rfl⟩
  | ok u =>
    dsimp only
    cases hseat : t.seats.seatForPlayer player with
    | none => exact Or.inl ⟨_, rfl⟩
    | some seat =>
      refine Or.inr ⟨seat, rfl, ?_⟩
      rw [if_neg (by simp)]
      split
      · rename_i hactive
        split
        · rename_i hstays
          exact Or.inr (Or.inl ⟨hactive, hstays, rfl⟩)
        · rename_i hleaves
          exact Or.inl ⟨hactive, not_not.mp hleaves, rfl⟩
      · rename_i hidle
        exact Or.inr (Or.inr ⟨activeHand_none hidle, ensureOpen_ok ho, rfl⟩)

theorem requestTransition_moves {op : LifecycleOp} (hop : op.seats t = false) (player : PlayerId)
    (transition : PendingSeatTransition) : Moves t op (t.requestTransition player transition).2 := by
  rcases t.requestTransition_cases player transition with ⟨_, he⟩ | ⟨_, _, ⟨_, _, he⟩ | ⟨hactive, _, he⟩ | ⟨hidle, hopen, he⟩⟩
  · rw [he]; exact .same op hop
  · rw [he]; exact .same op hop
  · rw [he]; exact .queued op player transition hop hactive
  · rw [he]; exact .passed op player transition hop hidle hopen

/-- A request that is refused changes nothing. -/
theorem requestTransition_refused {transition : PendingSeatTransition} {error : LifecycleError}
    (h : t.requestTransition player transition = (.error error, t')) : t' = t := by
  rcases t.requestTransition_cases player transition with ⟨_, he⟩ | ⟨_, _, ⟨_, _, he⟩ | ⟨_, _, he⟩ | ⟨_, _, he⟩⟩
  · rw [he] at h; exact (Prod.mk.inj h).2.symm
  all_goals rw [he] at h; cases h

theorem beginHand_cases (t : TableLifecycle) :
    ((t.handActive = true ∨ t.state = .closed) ∧ ∃ error, t.beginHand = (.error error, t)) ∨
      (t.activeHand = none ∧ t.state ≠ .closed ∧
      ((t.promoteNaturalBigBlindWaiter.eligibleCount < 2 ∧
          t.beginHand = (.error (.tooFewEligiblePlayers t.promoteNaturalBigBlindWaiter.eligibleCount),
            { t.promoteNaturalBigBlindWaiter with
              state := if t.promoteNaturalBigBlindWaiter.seats.occupiedCount = 0 then .waiting else .paused })) ∨
        (2 ≤ t.promoteNaturalBigBlindWaiter.eligibleCount ∧
          t.beginHand = (.ok t.promoteNaturalBigBlindWaiter.handStart, t.promoteNaturalBigBlindWaiter.dealHand)))) := by
  unfold beginHand
  cases ho : t.ensureOpen with
  | error error =>
    refine Or.inl ⟨Or.inr ?_, error, rfl⟩
    unfold ensureOpen at ho
    split at ho
    · assumption
    · cases ho
  | ok u =>
    dsimp only
    by_cases hactive : t.handActive = true
    · rw [if_pos hactive]; exact Or.inl ⟨Or.inl hactive, _, rfl⟩
    rw [if_neg hactive]
    refine Or.inr ⟨activeHand_none hactive, ensureOpen_ok ho, ?_⟩
    by_cases hshort : t.promoteNaturalBigBlindWaiter.eligibleCount < 2
    · rw [if_pos hshort]; exact Or.inl ⟨hshort, rfl⟩
    · rw [if_neg hshort]; exact Or.inr ⟨Nat.le_of_not_lt hshort, rfl⟩

theorem beginHand_started {start : HandStart} (h : t.beginHand.1 = .ok start) :
    2 ≤ t.promoteNaturalBigBlindWaiter.eligibleCount ∧ start = t.promoteNaturalBigBlindWaiter.handStart ∧
      t.beginHand.2 = t.promoteNaturalBigBlindWaiter.dealHand := by
  rcases t.beginHand_cases with ⟨_, error, he⟩ | ⟨_, _, ⟨_, he⟩ | ⟨hcount, he⟩⟩
  · rw [he] at h; cases h
  · rw [he] at h; cases h
  · rw [he] at h ⊢
    cases h
    exact ⟨hcount, rfl, rfl⟩

theorem beginHand_moves (t : TableLifecycle) : Moves t .beginHand t.beginHand.2 := by
  rcases t.beginHand_cases with ⟨_, error, he⟩ | ⟨hidle, hopen, ⟨hshort, he⟩ | ⟨hcount, he⟩⟩
  · rw [he]; exact .same _ rfl
  · rw [he]; exact .short hidle hopen hshort
  · have hok : t.beginHand.1 = .ok t.promoteNaturalBigBlindWaiter.handStart := congrArg Prod.fst he
    rw [he]; exact .dealt hidle hopen hcount hok

theorem completeHand_moves (t : TableLifecycle) (finalStacks : List (SeatId × Nat)) :
    Moves t (.completeHand finalStacks) (t.completeHand finalStacks).2 := by
  unfold completeHand
  cases hstart : t.activeHand with
  | none => exact .same _ rfl
  | some start =>
    dsimp only
    cases reported (start.seatStacks.foldl (fun m (seat, stack) => m.insert seat stack) .empty) finalStacks .empty with
    | error error => exact .same _ rfl
    | ok actual =>
      dsimp only
      split
      · exact .same _ rfl
      split
      · exact .same _ rfl
      split
      · exact .same _ rfl
      split
      · exact .same _ rfl
      · exact .completed finalStacks start actual hstart

theorem apply_moves (t : TableLifecycle) (op : LifecycleOp) : Moves t op (op.apply t) := by
  cases op with
  | reserve player seat =>
    rcases t.reserve_cases player seat with ⟨error, he⟩ | ⟨he, _⟩
    · rw [LifecycleOp.apply, he]; exact .same _ rfl
    · rw [LifecycleOp.apply, he]; exact .booked _ _ rfl
  | cancelReservation player seat =>
    simp only [LifecycleOp.apply, cancelReservation]
    split
    · exact .same _ rfl
    · exact .same _ rfl
    · split
      · exact .same _ rfl
      · exact .booked _ _ rfl
  | occupy player seat stack =>
    rcases t.occupy_cases player seat stack with ⟨error, he⟩ | ⟨t', he, hseats⟩
    · rw [LifecycleOp.apply, he]
      exact .same _ (by rw [LifecycleOp.seats, he]; rfl)
    · rw [LifecycleOp.apply, he]
      exact .seated _ (by rw [LifecycleOp.seats, he]; rfl) hseats
  | join player seat stack =>
    rcases t.join_cases player seat stack with ⟨error, reservations, he⟩ | ⟨t', he, hseats⟩
    · rw [LifecycleOp.apply, he]
      exact .booked _ reservations (by rw [LifecycleOp.seats, he]; rfl)
    · rw [LifecycleOp.apply, he]
      exact .seated _ (by rw [LifecycleOp.seats, he]; rfl) hseats
  | joinWithEntry player seat stack entry =>
    rcases t.joinWithEntry_cases player seat stack entry with ⟨error, reservations, he⟩ | ⟨t', hseats, ⟨_, he⟩ | ⟨hdealt, he⟩⟩
    · rw [LifecycleOp.apply, he]
      exact .booked _ reservations (by rw [LifecycleOp.seats, he]; rfl)
    · rw [LifecycleOp.apply, he]
      exact .seated _ (by rw [LifecycleOp.seats, he]; rfl) hseats
    · rw [LifecycleOp.apply, he]
      exact .entered entry (by rw [LifecycleOp.seats, he]; rfl) hseats hdealt
  | recordMissedBlind player missed =>
    simp only [LifecycleOp.apply, recordMissedBlind]
    cases ho : t.ensureOpen with
    | error error => exact .same _ rfl
    | ok u =>
      dsimp only
      split
      · exact .same _ rfl
      rename_i hidle
      split
      · exact .same _ rfl
      · exact .owed player missed _ (activeHand_none hidle) (ensureOpen_ok ho)
  | requestReturnWithEntry player entry =>
    simp only [LifecycleOp.apply, requestReturnWithEntry]
    cases ho : t.ensureOpen with
    | error error => exact .same _ rfl
    | ok u =>
      dsimp only
      split
      · exact .same _ rfl
      rename_i hidle
      split
      · exact .same _ rfl
      · exact .returned player entry _ (activeHand_none hidle) (ensureOpen_ok ho)
  | setConnection player connection =>
    simp only [LifecycleOp.apply, setConnection]
    split
    · exact .same _ rfl
    · exact .linked player connection _
  | requestSitOut player => exact requestTransition_moves rfl player .sitOut
  | requestReturn player => exact requestTransition_moves rfl player .return
  | requestLeave player => exact requestTransition_moves rfl player .leave
  | beginHand => exact t.beginHand_moves
  | completeHand finalStacks => exact t.completeHand_moves finalStacks
  | close =>
    simp only [LifecycleOp.apply, close]
    split
    · exact .same _ rfl
    split
    · exact .same _ rfl
    · rename_i hidle
      exact .closed (activeHand_none hidle)

end moves

end TableLifecycle

/-- The player is not on the way out: a seat is vacated at once, or after the hand. -/
def SeatState.Stays (st : SeatState) : Prop := st.tableParticipation ≠ .leaving

namespace TableLifecycle

/-! ## Every table reached -/

structure Roster (t : TableLifecycle) : Prop where
  size : t.seats.tableSize = t.tableSize
  seats : ∀ p st, t.seats.seat p = some st → st.Stays
  button : ∀ b, t.lastButton = some b → t.tableSize.contains b = true
  counted : 0 < t.nextHandNumber

/-- What the rotation of the button rests on. -/
structure Ring (t : TableLifecycle) : Prop where
  size : t.seats.tableSize = t.tableSize
  button : ∀ b, t.lastButton = some b → t.tableSize.contains b = true

structure Sound (t : TableLifecycle) : Prop extends Roster t where
  running : t.handActive = true → t.state = .running
  idle : t.activeHand = none → t.pending = .empty
  vacant : t.activeHand = none → t.state ≠ .closed → t.seats.occupiedCount = 0 → t.state = .waiting
  ready : t.activeHand = none → t.state = .running → 2 ≤ t.eligibleCount
  short : t.activeHand = none → t.state = .paused → 0 < t.seats.occupiedCount ∧ t.eligibleCount < 2

/-- A table as it is made. -/
inductive Starts : TableLifecycle → Prop
  | new (tableSize : TableSize) : Starts (.new tableSize)
  | restored (checkpoint : BetweenHandLifecycle) (t : TableLifecycle) : restoreBetweenHand checkpoint = .ok t → Starts t

section sound
variable {t t' : TableLifecycle} {player : PlayerId} {seat : SeatId} {stack : Nat}

theorem reentry_stays (st : SeatState) (entry : RingEntryChoice) :
    SeatState.Stays { st with tableParticipation := st.blindObligation.reentry entry } := by
  simp only [SeatState.Stays, BlindObligation.reentry]
  split
  · simp
  · cases entry <;> simp

theorem Roster.ring (hr : t.Roster) : t.Ring := ⟨hr.size, hr.button⟩

theorem Roster.modify (hr : t.Roster) {f : SeatState → SeatState} {hf} (hstays : ∀ st, st.Stays → (f st).Stays) :
    (t.modifySeat seat f hf).Roster := by
  refine ⟨hr.size, fun p st hst => ?_, hr.button, hr.counted⟩
  simp only [modifySeat, TableSeats.seat_modify] at hst
  split at hst
  · obtain ⟨st', hst', rfl⟩ := Option.map_eq_some_iff.mp hst
    exact hstays _ (hr.seats p st' hst')
  · exact hr.seats p st hst

theorem Roster.applyTransition (hr : t.Roster) (player : PlayerId) (transition : PendingSeatTransition) :
    (t.applyTransition player transition).Roster := by
  unfold TableLifecycle.applyTransition
  cases t.seats.seatForPlayer player with
  | none => exact hr
  | some seat =>
    cases transition with
    | sitOut => exact hr.modify fun st _ => by simp [SeatState.Stays]
    | «return» => exact hr.modify fun st _ => reentry_stays st _
    | leave =>
      refine ⟨hr.size, fun p st hst => ?_, hr.button, hr.counted⟩
      simp only [TableSeats.seat_vacate] at hst
      split at hst
      · cases hst
      · exact hr.seats p st hst

/-- A transition touches the seats only. -/
theorem applyTransition_frame (t : TableLifecycle) (player : PlayerId) (transition : PendingSeatTransition) :
    t.applyTransition player transition = { t with seats := (t.applyTransition player transition).seats } := by
  unfold TableLifecycle.applyTransition
  cases t.seats.seatForPlayer player with
  | none => rfl
  | some seat => cases transition <;> rfl

/-- What was pending is applied, and touches the seats only. -/
theorem applyPending_frame (t : TableLifecycle) :
    t.applyPending = { t with seats := t.applyPending.seats, pending := .empty } := by
  have hfold : ∀ (l : List (PlayerId × PendingSeatTransition)) (t : TableLifecycle),
      l.foldl (fun t (x : PlayerId × PendingSeatTransition) => t.applyTransition x.1 x.2) t = { t with
        seats := (l.foldl (fun t (x : PlayerId × PendingSeatTransition) => t.applyTransition x.1 x.2) t).seats } := by
    intro l
    induction l with
    | nil => exact fun t => rfl
    | cons x l ih =>
      intro t
      have hx := applyTransition_frame t x.1 x.2
      have hrest := ih (t.applyTransition x.1 x.2)
      rw [List.foldl_cons]
      generalize t.applyTransition x.1 x.2 = k at hx hrest
      generalize (l.foldl (fun t (x : PlayerId × PendingSeatTransition) => t.applyTransition x.1 x.2) k).seats = left at hrest
      rw [hrest, hx]
  exact hfold t.pending.entries { t with pending := .empty }

theorem Roster.applyPending (hr : t.Roster) : t.applyPending.Roster := by
  have hfold : ∀ (l : List (PlayerId × PendingSeatTransition)) (t : TableLifecycle), t.Roster →
      (l.foldl (fun t (x : PlayerId × PendingSeatTransition) => t.applyTransition x.1 x.2) t).Roster := by
    intro l
    induction l with
    | nil => exact fun t ht => ht
    | cons x l ih => exact fun t ht => ih _ (ht.applyTransition x.1 x.2)
  exact hfold t.pending.entries { t with pending := .empty } ⟨hr.size, hr.seats, hr.button, hr.counted⟩

theorem refresh_frame (t : TableLifecycle) :
    t.refreshBetweenHandState = { t with state := t.refreshBetweenHandState.state } := by
  unfold refreshBetweenHandState
  split <;> rfl

theorem refresh_seats (t : TableLifecycle) : t.refreshBetweenHandState.seats = t.seats := by rw [refresh_frame]

/-- Between hands the run state follows the seats. -/
theorem Roster.refresh (hr : t.Roster) (hactive : t.activeHand = none) (hopen : t.state ≠ .closed)
    (hpending : t.pending = .empty) : t.refreshBetweenHandState.Sound := by
  have hidle : (decide (t.state = .closed) || t.handActive) = false := by simp [hopen, handActive, hactive]
  unfold refreshBetweenHandState
  rw [hidle, if_neg Bool.false_ne_true]
  refine ⟨⟨hr.size, hr.seats, hr.button, hr.counted⟩, fun ha => ?_, fun _ => hpending, fun _ _ hzero => if_pos hzero,
    fun _ hrun => ?_, fun _ hpause => ?_⟩
  · have hsome : t.activeHand.isSome = true := ha
    rw [hactive] at hsome; cases hsome
  · by_cases hzero : t.seats.occupiedCount = 0
    · simp only [if_pos hzero] at hrun; cases hrun
    · simp only [if_neg hzero] at hrun
      show 2 ≤ t.eligibleCount
      split at hrun
      · split at hrun
        · assumption
        · cases hrun
      · split at hrun
        · assumption
        · cases hrun
      · cases hrun
  · by_cases hzero : t.seats.occupiedCount = 0
    · simp only [if_pos hzero] at hpause; cases hpause
    · simp only [if_neg hzero] at hpause
      refine ⟨Nat.pos_of_ne_zero hzero, ?_⟩
      show t.eligibleCount < 2
      split at hpause
      · split at hpause
        · cases hpause
        · omega
      · split at hpause
        · cases hpause
        · omega
      · cases hpause

/-! ## Dealing -/

theorem nextButton_eligible {b : SeatId} (h : t.nextButton = some b) : t.seats.eligible b = true := by
  unfold nextButton at h
  split at h
  · exact (TableSeats.nextForHand_eligible h).1
  · exact List.find?_some h

theorem Ring.nextButton_isSome (hr : t.Ring) (hcount : 2 ≤ t.eligibleCount) : ∃ b, t.nextButton = some b := by
  unfold nextButton
  cases hlast : t.lastButton with
  | some last =>
    have hin : last.val < t.seats.tableSize.get := by
      rw [hr.size]
      simpa [TableSize.contains] using hr.button last hlast
    exact TableSeats.nextForHand_isSome hcount hin
  | none =>
    obtain ⟨q, hq, _⟩ := TableSeats.exists_eligible_ne hcount 0
    have hmem := TableSeats.mem_seats_of_eligible hq
    rw [hr.size] at hmem
    exact Option.isSome_iff_exists.mp (List.find?_isSome.mpr ⟨q, hmem, hq⟩)

/-- A hand that starts has its button and its positions: no `expect` of `begin_hand` can fail. -/
theorem Ring.beginHand_positions (hr : t.Ring) (hcount : 2 ≤ t.eligibleCount) :
    t.nextButton = some t.handStart.button ∧ t.seats.eligible t.handStart.button = true ∧
      t.seats.positions t.handStart.button = .ok (t.blindsFrom t.handStart.button) := by
  obtain ⟨b, hb⟩ := hr.nextButton_isSome hcount
  have hbutton : t.handStart.button = b := by rw [handStart, hb, Option.getD_some]
  have heligible := nextButton_eligible hb
  rw [hbutton, blindsFrom]
  rcases TableSeats.positions_ok heligible hcount with ⟨_, bigBlind, _, hpos⟩ | ⟨_, smallBlind, bigBlind, first, _, _, _, hpos⟩
  · rw [hpos]; exact ⟨hb, heligible, rfl⟩
  · rw [hpos]; exact ⟨hb, heligible, rfl⟩

theorem nodup_dealtStacks (t : TableLifecycle) : (t.dealtStacks.map (·.1)).Nodup :=
  t.seats.nodup_kept (·.eligibleForNextHand) (·.stack)

/-- Dealing clears the debts of the players dealt in, and of nobody else. -/
theorem seat_dealHand (t : TableLifecycle) (q : SeatId) :
    t.dealHand.seats.seat q = if t.seats.eligible q = true then (t.seats.seat q).map dealIn else t.seats.seat q := by
  have hlookup := t.seats.lookup_occupied (·.eligibleForNextHand) (·.stack) q
  have hseat := (TableSeats.seat_foldl_modify (fun (_ : Nat) => dealIn) (fun _ _ => rfl) t.dealtStacks
    t.nodup_dealtStacks t.seats).2 q
  have hstacks : t.dealtStacks.lookup q = ((t.seats.seat q).filter (·.eligibleForNextHand)).map (·.stack) := hlookup
  rw [show t.dealHand.seats.seat q = _ from hseat, hstacks, TableSeats.eligible]
  cases t.seats.seat q with
  | none => rfl
  | some st =>
    by_cases he : st.eligibleForNextHand = true
    · rw [Option.filter_some, if_pos he, if_pos (by simpa using he)]; rfl
    · rw [Option.filter_some, if_neg he, if_neg (by simpa using he)]; rfl

theorem Roster.promote (hr : t.Roster) : t.promoteNaturalBigBlindWaiter.Roster := by
  unfold promoteNaturalBigBlindWaiter
  cases t.promoted with
  | none => exact hr
  | some candidate => exact hr.modify fun st _ => by simp [SeatState.Stays]

theorem promote_frame (t : TableLifecycle) :
    t.promoteNaturalBigBlindWaiter = { t with seats := t.promoteNaturalBigBlindWaiter.seats } := by
  unfold promoteNaturalBigBlindWaiter
  cases t.promoted <;> rfl

theorem Ring.promote (hr : t.Ring) : t.promoteNaturalBigBlindWaiter.Ring := by
  refine ⟨?_, ?_⟩ <;> unfold promoteNaturalBigBlindWaiter <;> cases t.promoted
  · exact hr.size
  · exact hr.size
  · exact hr.button
  · exact hr.button

theorem Roster.dealHand (hr : t.Roster) (hcount : 2 ≤ t.eligibleCount) : t.dealHand.Roster := by
  refine ⟨?_, fun p st hst => ?_, fun b hb => ?_, Nat.succ_pos _⟩
  · exact ((TableSeats.seat_foldl_modify (fun (_ : Nat) => dealIn) (fun _ _ => rfl) t.dealtStacks
      t.nodup_dealtStacks t.seats).1).trans hr.size
  · rw [seat_dealHand] at hst
    split at hst
    · rename_i he
      obtain ⟨st', hst', rfl⟩ := Option.map_eq_some_iff.mp hst
      obtain ⟨st'', hst'', hel⟩ := TableSeats.eligible_iff.mp he
      rw [hst'] at hst''
      cases hst''
      have hactive : st'.tableParticipation = .active := by
        simp only [SeatState.eligibleForNextHand, Bool.and_eq_true, decide_eq_true_eq] at hel
        exact hel.2
      simp [SeatState.Stays, dealIn, hactive]
    · exact hr.seats p st hst
  · cases hb
    have heligible := (hr.ring.beginHand_positions hcount).2.1
    have hin := TableSeats.inside_of_eligible heligible
    rw [hr.size] at hin
    exact decide_eq_true hin

/-! ## One call -/

theorem Moves.size {op : LifecycleOp} (hm : Moves t op t') : t'.seats.tableSize = t.seats.tableSize := by
  have hseats : ∀ {player seat stack t'}, Seats t player seat stack t' → t'.seats.tableSize = t.seats.tableSize := by
    intro player seat stack t' hs
    obtain ⟨_, _, hocc, rfl⟩ := hs.taken
    rw [refresh_seats]
    exact (TableSeats.occupy_ok hocc).2.2.2.1
  have htransition : ∀ (k : TableLifecycle) player transition,
      (k.applyTransition player transition).seats.tableSize = k.seats.tableSize := by
    intro k player transition
    unfold applyTransition
    cases k.seats.seatForPlayer player with
    | none => rfl
    | some seat => cases transition <;> rfl
  have htransitions : ∀ (l : List (PlayerId × PendingSeatTransition)) (k : TableLifecycle),
      (l.foldl (fun t (e : PlayerId × PendingSeatTransition) => t.applyTransition e.1 e.2) k).seats.tableSize =
        k.seats.tableSize := by
    intro l
    induction l with
    | nil => exact fun k => rfl
    | cons e rest ih => exact fun k => (ih _).trans (htransition k e.1 e.2)
  have hpromote : t.promoteNaturalBigBlindWaiter.seats.tableSize = t.seats.tableSize := by
    unfold promoteNaturalBigBlindWaiter
    cases t.promoted <;> rfl
  cases hm with
  | same | booked | owed | linked | queued | closed => rfl
  | seated _ _ hs => exact hseats hs
  | entered _ _ hs _ =>
    rw [refresh_seats]
    have hsame := hseats hs
    exact hsame
  | returned => rw [refresh_seats]; rfl
  | passed _ player transition =>
    rw [refresh_seats]
    exact htransition t player transition
  | short => exact hpromote
  | dealt =>
    exact (TableSeats.seat_foldl_modify (fun (_ : Nat) => dealIn) (fun _ _ => rfl) _ (nodup_dealtStacks _) _).1.trans hpromote
  | completed _ _ actual =>
    rw [refresh_seats]
    exact (htransitions _ _).trans
      (TableSeats.seat_foldl_modify settleSeat (fun _ _ => rfl) actual.entries OrdMap.nodup_keys t.seats).1

/-- Only a hand that begins moves the button. -/
theorem Moves.button {op : LifecycleOp} (hm : Moves t op t') : t'.tableSize = t.tableSize ∧ (t'.lastButton = t.lastButton ∨
    op = .beginHand ∧ 2 ≤ t.promoteNaturalBigBlindWaiter.eligibleCount ∧ t' = t.promoteNaturalBigBlindWaiter.dealHand) := by
  have hseats : ∀ {player seat stack t'}, Seats t player seat stack t' →
      t'.tableSize = t.tableSize ∧ t'.lastButton = t.lastButton := by
    intro player seat stack t' hs
    obtain ⟨_, _, _, rfl⟩ := hs.taken
    rw [refresh_frame]
    exact ⟨rfl, rfl⟩
  cases hm with
  | same | booked | owed | linked | queued | closed => exact ⟨rfl, .inl rfl⟩
  | seated _ _ hs => exact ⟨(hseats hs).1, .inl (hseats hs).2⟩
  | entered _ _ hs _ =>
    rw [refresh_frame]
    have hsame := hseats hs
    exact ⟨hsame.1, .inl hsame.2⟩
  | returned =>
    rw [refresh_frame]
    exact ⟨rfl, .inl rfl⟩
  | passed _ player transition =>
    rw [refresh_frame, applyTransition_frame]
    exact ⟨rfl, .inl rfl⟩
  | short =>
    rw [promote_frame]
    exact ⟨rfl, .inl rfl⟩
  | dealt _ _ hcount =>
    refine ⟨?_, .inr ⟨rfl, hcount, rfl⟩⟩
    rw [dealHand, promote_frame]
  | completed =>
    rw [refresh_frame, applyPending_frame]
    exact ⟨rfl, .inl rfl⟩

theorem Ring.step (hr : t.Ring) (op : LifecycleOp) : (op.apply t).Ring := by
  have hsize := (t.apply_moves op).size
  obtain ⟨htable, hbutton⟩ := (t.apply_moves op).button
  refine ⟨hsize.trans (hr.size.trans htable.symm), fun b hb => ?_⟩
  rcases hbutton with hsame | ⟨_, hcount, hdealt⟩
  · rw [htable]
    exact hr.button b (hsame ▸ hb)
  · rw [hdealt] at hb ⊢
    cases hb
    have hin := TableSeats.inside_of_eligible (hr.promote.beginHand_positions hcount).2.1
    rw [hr.promote.size] at hin
    exact decide_eq_true hin

theorem Ring.run (hr : t.Ring) (ops : List LifecycleOp) : (t.run ops).Ring := by
  induction ops generalizing t with
  | nil => exact hr
  | cons op ops ih => exact ih (hr.step op)


theorem occupied_modifySeat (t : TableLifecycle) (seat : SeatId) (f : SeatState → SeatState) (hf) :
    (t.modifySeat seat f hf).seats.occupiedCount = t.seats.occupiedCount := by
  refine TableSeats.occupiedCount_congr rfl fun p => ?_
  simp only [modifySeat, TableSeats.seat_modify]
  split
  · cases t.seats.seat p <;> rfl
  · rfl

/-- A write that leaves stacks and participation alone leaves who is eligible. -/
theorem Sound.modifyQuiet (hs : t.Sound) {f : SeatState → SeatState} {hf} (hstays : ∀ st, st.Stays → (f st).Stays)
    (hquiet : ∀ st, (f st).eligibleForNextHand = st.eligibleForNextHand) : (t.modifySeat seat f hf).Sound := by
  have hoccupied := occupied_modifySeat t seat f hf
  have heligible : (t.modifySeat seat f hf).eligibleCount = t.eligibleCount := by
    refine TableSeats.eligibleCount_congr rfl fun p => ?_
    simp only [modifySeat, TableSeats.eligible, TableSeats.seat_modify]
    split
    · cases t.seats.seat p with
      | none => rfl
      | some st => exact hquiet st
    · rfl
  refine ⟨hs.toRoster.modify hstays, hs.running, hs.idle, fun ha hopen hzero => ?_, fun ha hrun => ?_, fun ha hpause => ?_⟩
  · exact hs.vacant ha hopen (hoccupied ▸ hzero)
  · rw [heligible]; exact hs.ready ha hrun
  · rw [heligible, hoccupied]; exact hs.short ha hpause

/-- A table with a new player on a free seat. -/
theorem Sound.taken (hs : t.Sound) (h : Seats t player seat stack t') : t'.Sound ∧ t'.activeHand = none ∧ t'.state ≠ .closed := by
  obtain ⟨seats, reservations, hocc, rfl⟩ := h.taken
  obtain ⟨_, _, _, hsize, hseat⟩ := TableSeats.occupy_ok hocc
  have hroster : Roster { t with seats := seats, reservations := reservations } := by
    refine ⟨hsize.trans hs.size, fun p st hst => ?_, hs.button, hs.counted⟩
    rw [hseat p] at hst
    split at hst
    · cases hst; simp [SeatState.Stays, SeatState.seated]
    · exact hs.seats p st hst
  refine ⟨hroster.refresh h.idle h.isOpen (hs.idle h.idle), ?_, ?_⟩
  · unfold refreshBetweenHandState
    split <;> exact h.idle
  · unfold refreshBetweenHandState
    split
    · exact h.isOpen
    · simp only
      split
      · simp
      · split
        · split <;> simp
        · split <;> simp
        · simp

theorem settled_roster (hr : t.Roster) (settled : OrdMap SeatId Nat) : Roster { t with
    seats := settled.entries.foldl (fun seats (seat, stack) => seats.modify seat (settleSeat stack) fun _ => rfl) t.seats
    activeHand := none } := by
  obtain ⟨hsize, hseat⟩ := TableSeats.seat_foldl_modify settleSeat (fun _ _ => rfl) settled.entries OrdMap.nodup_keys t.seats
  refine ⟨hsize.trans hr.size, fun p st hst => ?_, hr.button, hr.counted⟩
  have hst := (hseat p).symm.trans hst
  split at hst
  · obtain ⟨st', hst', rfl⟩ := Option.map_eq_some_iff.mp hst
    exact hr.seats p st' hst'
  · exact hr.seats p st hst

theorem Sound.step (hs : t.Sound) (op : LifecycleOp) : (op.apply t).Sound := by
  have hmoves := t.apply_moves op
  generalize op.apply t = left at hmoves
  cases hmoves with
  | same => exact hs
  | booked _ reservations =>
    exact ⟨⟨hs.size, hs.seats, hs.button, hs.counted⟩, hs.running, hs.idle, hs.vacant, hs.ready, hs.short⟩
  | seated _ _ h => exact (hs.taken h).1
  | entered entry _ h hdealt =>
    obtain ⟨hs', hidle, hopen⟩ := hs.taken h
    exact (hs'.toRoster.modify fun st _ => by cases entry <;> simp [SeatState.Stays, entering]).refresh hidle hopen
      (hs'.idle hidle)
  | owed player missed seat =>
    exact hs.modifyQuiet (fun st hst => hst) fun st => rfl
  | linked => exact hs.modifyQuiet (fun st hst => hst) fun st => rfl
  | returned player entry seat hidle hopen =>
    exact (hs.toRoster.modify fun st _ => reentry_stays st entry).refresh hidle hopen (hs.idle hidle)
  | passed _ player transition _ hidle hopen =>
    have hframe := applyTransition_frame t player transition
    have hroster := hs.toRoster.applyTransition player transition
    generalize t.applyTransition player transition = k at hframe hroster
    rw [hframe] at hroster ⊢
    exact hroster.refresh hidle hopen (hs.idle hidle)
  | queued _ player transition _ hactive =>
    have hbusy : t.activeHand ≠ none := fun h => by simp [handActive, h] at hactive
    exact ⟨⟨hs.size, hs.seats, hs.button, hs.counted⟩, hs.running, fun h => absurd h hbusy, fun h => absurd h hbusy,
      fun h => absurd h hbusy, fun h => absurd h hbusy⟩
  | short hidle hopen hcount =>
    have hroster := hs.toRoster.promote
    have hframe := t.promote_frame
    generalize t.promoteNaturalBigBlindWaiter = k at hcount hroster hframe
    refine ⟨⟨hroster.size, hroster.seats, hroster.button, hroster.counted⟩, fun ha => ?_, fun _ => ?_, fun _ _ hzero => ?_,
      fun _ hrun => ?_, fun _ hpause => ?_⟩
    · rw [hframe] at ha; simp [handActive, hidle] at ha
    · rw [hframe]; exact hs.idle hidle
    · exact if_pos hzero
    · simp only at hrun; split at hrun <;> cases hrun
    · simp only at hpause
      split at hpause
      · cases hpause
      · rename_i hzero; exact ⟨Nat.pos_of_ne_zero hzero, hcount⟩
  | dealt _ _ hcount =>
    have hroster := hs.toRoster.promote.dealHand hcount
    exact ⟨hroster, fun _ => rfl, fun h => by simp [dealHand] at h, fun h => by simp [dealHand] at h,
      fun h => by simp [dealHand] at h, fun h => by simp [dealHand] at h⟩
  | completed finalStacks start settled hactive =>
    have hframe := applyPending_frame { t with
      seats := settled.entries.foldl (fun seats (x : SeatId × Nat) => seats.modify x.1 (settleSeat x.2) fun _ => rfl) t.seats
      activeHand := none }
    refine (settled_roster hs.toRoster settled).applyPending.refresh ?_ ?_ ?_
    · rw [hframe]
    · rw [hframe]
      have := hs.running (by simp [handActive, hactive])
      simp [this]
    · rw [hframe]
  | closed hidle =>
    refine ⟨⟨hs.size, hs.seats, hs.button, hs.counted⟩, fun ha => ?_, fun _ => rfl, fun _ h => absurd rfl h,
      (fun _ h => nomatch h), (fun _ h => nomatch h)⟩
    simp [handActive, hidle] at ha

theorem run_append (t : TableLifecycle) (before after : List LifecycleOp) :
    t.run (before ++ after) = (t.run before).run after := List.foldl_append

/-- What holds at the first call, and at each of the rest, holds at every call of the run. -/
theorem throughout_cons {P : LifecycleOp → TableLifecycle → Prop} {op : LifecycleOp} {ops : List LifecycleOp} (hfirst : P op t)
    (hrest : ∀ before call after, ops = before ++ call :: after → P call ((op.apply t).run before)) :
    ∀ before call after, op :: ops = before ++ call :: after → P call (t.run before) := by
  intro before call after hops
  cases before with
  | nil =>
    obtain ⟨rfl, _⟩ := List.cons.inj hops
    exact hfirst
  | cons first before =>
    obtain ⟨rfl, hlater⟩ := List.cons.inj hops
    exact hrest before call after hlater

/-- Whatever is called, in whatever order. -/
theorem Sound.run (hs : t.Sound) (ops : List LifecycleOp) : (t.run ops).Sound := by
  induction ops generalizing t with
  | nil => exact hs
  | cons op ops ih => exact ih (hs.step op)

/-! ## A table as it is made -/

/-- The seats read back are those of the entries, none of which is leaving. -/
theorem restoreSeats_stays {size : TableSize} {l : List BetweenHandSeat} {s s' : TableSeats} (h : restoreSeats size l s = .ok s')
    (hstays : ∀ p st, s.seat p = some st → st.Stays) :
    s'.tableSize = s.tableSize ∧ ∀ p st, s'.seat p = some st → st.Stays := by
  induction l generalizing s with
  | nil =>
    cases h
    exact ⟨rfl, hstays⟩
  | cons entry rest ih =>
    rw [restoreSeats] at h
    split at h
    · cases h
    rename_i hentry
    split at h
    · cases h
    · rename_i hocc
      obtain ⟨_, _, _, hsize, hseat⟩ := TableSeats.occupy_ok hocc
      have hnew : entry.restored.Stays := by
        intro hleaving
        exact hentry (by rw [show entry.participation = .leaving from hleaving]; simp)
      obtain ⟨hsame, hall⟩ := ih h fun p st hst => by
        rw [hseat] at hst
        split at hst
        · cases hst
          exact hnew
        · exact hstays p st hst
      exact ⟨hsame.trans hsize, hall⟩

/-- What a checkpoint that is accepted gives. -/
theorem restoreBetweenHand_ok {checkpoint : BetweenHandLifecycle} (h : restoreBetweenHand checkpoint = .ok t) :
    t.Roster ∧ t.activeHand = none ∧ t.pending = .empty ∧
      stateValid t.state t.nextHandNumber t.seats.occupiedCount t.eligibleCount = true := by
  unfold restoreBetweenHand at h
  split at h
  · cases h
  rename_i hvalid
  split at h
  · cases h
  rename_i seats hseats
  obtain ⟨hsize, hstays⟩ := restoreSeats_stays hseats fun p st hst => by cases hst
  dsimp only at h
  split at h
  · rename_i hstate
    cases h
    simp only [Bool.or_eq_true, decide_eq_true_eq, not_or] at hvalid
    refine ⟨⟨hsize, hstays, fun b hb => ?_, Nat.pos_of_ne_zero hvalid.1.1⟩, rfl, rfl, hstate⟩
    have hin : checkpoint.lastButton = some b := hb
    show checkpoint.tableSize.contains b = true
    by_contra hout
    exact hvalid.1.2 (by simp [hin, hout])
  · cases h

/-- Nobody is eligible at an empty table. -/
theorem eligibleCount_empty (h : t.seats.occupiedCount = 0) : t.eligibleCount = 0 := by
  have hnone := TableSeats.occupiedCount_zero.mp h
  rw [eligibleCount, TableSeats.eligibleCount_eq, List.length_eq_zero_iff, List.filter_eq_nil_iff]
  intro p _ hel
  obtain ⟨st, hst, _⟩ := TableSeats.eligible_iff.mp hel
  rw [hnone] at hst
  cases hst

theorem Starts.sound (hs : t.Starts) : t.Sound := by
  cases hs with
  | new size =>
    exact ⟨⟨rfl, (fun p st h => by cases h), (fun b h => by cases h), Nat.one_pos⟩, (fun h => by cases h), fun _ => rfl,
      fun _ _ _ => rfl, (fun _ h => by cases h), (fun _ h => by cases h)⟩
  | restored checkpoint _ h =>
    obtain ⟨hroster, hidle, hpending, hvalid⟩ := restoreBetweenHand_ok h
    refine ⟨hroster, fun ha => ?_, fun _ => hpending, fun _ hopen hzero => ?_, fun _ hrun => ?_, fun _ hpause => ?_⟩
    · rw [handActive, hidle] at ha
      cases ha
    · cases hstate : t.state with
      | waiting => rfl
      | closed => exact absurd hstate hopen
      | running =>
        rw [hstate, eligibleCount_empty hzero] at hvalid
        cases hvalid
      | paused =>
        rw [hstate, hzero] at hvalid
        cases hvalid
    · rw [hrun] at hvalid
      exact of_decide_eq_true hvalid
    · rw [hpause] at hvalid
      simpa [stateValid] using hvalid

theorem Starts.ring (hs : t.Starts) : t.Ring := hs.sound.toRoster.ring

end sound

end TableLifecycle

end OpenFelt
