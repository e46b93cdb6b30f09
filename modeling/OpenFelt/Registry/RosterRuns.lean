/-
  OpenFelt.Registry.RosterRuns — the roster of a table, whatever is called on it.

  Proved of every table reached from a new or a restored one (`run_keeps_roster`): nobody
  sits twice or has two reservations, reserved seats are free, the players of a hand stay
  until it ends, who asked to leave leaves, chips come and go with players only, and a call
  that fails leaves the table as it was. A hand is taken back exactly when its stacks are
  those of its seats and come to what was dealt, which has to fit a `u32`: between players
  with more than that a hand never ends (`rich_hand_never_ends`).
-/

import OpenFelt.Registry.Accepts
import OpenFelt.Lib.Ledger

namespace OpenFelt

namespace LifecycleOp

/-- What the call answers. -/
def answer : LifecycleOp → TableLifecycle → Except LifecycleError Unit
  | reserve player seat, t => (t.reserve player seat).1
  | cancelReservation player seat, t => (t.cancelReservation player seat).1
  | occupy player seat stack, t => (t.occupy player seat stack).1
  | join player seat stack, t => (t.join player seat stack).1
  | joinWithEntry player seat stack entry, t => (t.joinWithEntry player seat stack entry).1
  | recordMissedBlind player missed, t => (t.recordMissedBlind player missed).1
  | requestReturnWithEntry player entry, t => (t.requestReturnWithEntry player entry).1
  | setConnection player connection, t => (t.setConnection player connection).1
  | requestSitOut player, t => (t.requestSitOut player).1
  | requestReturn player, t => (t.requestReturn player).1
  | requestLeave player, t => (t.requestLeave player).1
  | beginHand, t => t.beginHand.1.map fun _ => ()
  | completeHand finalStacks, t => (t.completeHand finalStacks).1
  | close, t => t.close.1

/-- The call ends the hand. -/
def completes (op : LifecycleOp) (t : TableLifecycle) : Bool :=
  match op with
  | completeHand finalStacks => (t.completeHand finalStacks).1.isOk
  | _ => false

/-- The chips that a player who joins in the call brings. -/
def brought (op : LifecycleOp) (t : TableLifecycle) : Nat :=
  match op with
  | occupy _ _ stack | join _ _ stack | joinWithEntry _ _ stack _ => if op.seats t then stack else 0
  | _ => 0

/-- A player's chips when the call takes effect. -/
def finalStack (op : LifecycleOp) (seat : SeatId) (st : SeatState) : Nat :=
  match op with
  | completeHand finalStacks => (finalStacks.lookup seat).getD st.stack
  | _ => st.stack

/-- The chips that the players who leave in the call take with them. -/
def taken (op : LifecycleOp) (t : TableLifecycle) : Nat :=
  (t.seats.occupied.map fun (seat, st) => if ((op.apply t).seats.seat seat).isNone then op.finalStack seat st else 0).sum

end LifecycleOp

namespace TableLifecycle

/-- The chips on the table. -/
def chips (t : TableLifecycle) : Nat := (t.seats.occupied.map fun (_, st) => st.stack).sum

/-- No call of the run ends a hand. -/
def uncompleted (t : TableLifecycle) : List LifecycleOp → Bool
  | [] => true
  | op :: ops => !op.completes t && (op.apply t).uncompleted ops

/-- What holds of a roster, and of the next call on it. -/
structure KeepsRoster (t : TableLifecycle) : Prop where
  seated : ∀ p q player, t.playerAt p = some player → t.playerAt q = some player → p = q
  booked : ∀ p q player, t.reservations.find? p = some player → t.reservations.find? q = some player → p = q
  vacant : ∀ p, t.reservations.contains p = true → t.seats.seat p = none
  dealt : ∀ start, t.activeHand = some start → ∀ p ∈ start.seatStacks.map (·.1), ∃ player, t.playerAt p = some player ∧
    ∀ ops, t.uncompleted ops = true → (t.run ops).activeHand = some start ∧ (t.run ops).playerAt p = some player
  /-- Who asked to leave leaves when the hand ends, and until then goes on asking. -/
  leaving : ∀ player, t.pending.find? player = some .leave → ∀ op : LifecycleOp,
    if op.completes t then ∀ p, (op.apply t).playerAt p ≠ some player else (op.apply t).pending.find? player = some .leave
  chips : ∀ op : LifecycleOp, (op.apply t).chips + op.taken t = t.chips + op.brought t
  completes : ∀ finalStacks, (t.completeHand finalStacks).1 = .ok () ↔ ∃ start, t.activeHand = some start ∧
    (finalStacks.map (·.1)).Perm (start.seatStacks.map (·.1)) ∧
      (finalStacks.map (·.2)).sum = (start.seatStacks.map (·.2)).sum ∧ (start.seatStacks.map (·.2)).sum ≤ u32Max
  refuses : ∀ op : LifecycleOp, op ≠ .beginHand → ∀ error, op.answer t = .error error → op.apply t = t

/-! ## Calls that fail -/

section refusals
variable {t t' : TableLifecycle} {player : PlayerId} {seat : SeatId} {stack : Nat} {error : LifecycleError} {op : LifecycleOp}

/-- The seat that a failing `join` reserved is free again. -/
theorem join_refused (h : (t.join player seat stack).1 = .error error) : (t.join player seat stack).2 = t := by
  unfold join at h ⊢
  split
  · rfl
  rename_i hstack
  rw [if_neg hstack] at h
  rcases t.reserve_cases player seat with ⟨_, he⟩ | ⟨he, _⟩
  · rw [he]
  · have hnew := (reserve_ok_iff.mp (congrArg Prod.fst he)).2.2.2.2
    rw [he] at h ⊢
    dsimp only at h ⊢
    rcases occupy_cases { t with reservations := t.reservations.insert seat player } player seat stack with ⟨_, ho⟩ | ⟨_, ho, _⟩
    · rw [ho]
      dsimp only
      rw [OrdMap.erase_insert hnew]
    · rw [ho] at h
      cases h

/-- A hand's stacks are refused, or written into the seats. -/
theorem completeHand_cases (t : TableLifecycle) (finalStacks : List (SeatId × Nat)) :
    (∃ error, t.completeHand finalStacks = (.error error, t)) ∨ ∃ (start : HandStart) (actual : OrdMap SeatId Nat),
      t.activeHand = some start ∧ t.Takes finalStacks ∧ (∀ q, actual.find? q = finalStacks.lookup q) ∧
      t.completeHand finalStacks = (.ok (), (applyPending { t with
        seats := actual.entries.foldl (fun seats (seat, stack) => seats.modify seat (settleSeat stack) fun _ => rfl) t.seats
        activeHand := none }).refreshBetweenHandState) := by
  rcases t.completeHand_writes finalStacks with herror | ⟨start, actual, hstart, hfind, he⟩
  · exact Or.inl herror
  · exact Or.inr ⟨start, actual, hstart, completeHand_ok_iff.mp (congrArg Prod.fst he), hfind, he⟩

theorem refuses (t : TableLifecycle) (op : LifecycleOp) (hbegin : op ≠ .beginHand) (h : op.answer t = .error error) :
    op.apply t = t := by
  cases op with
  | reserve player seat =>
    rcases t.reserve_cases player seat with ⟨_, he⟩ | ⟨he, _⟩
    · rw [LifecycleOp.apply, he]
    · rw [LifecycleOp.answer, he] at h; cases h
  | cancelReservation player seat =>
    simp only [LifecycleOp.answer, LifecycleOp.apply, cancelReservation] at h ⊢
    split
    · rfl
    · rfl
    · rename_i hopen hfound
      rw [hopen, hfound] at h
      dsimp only at h
      split
      · rfl
      · rename_i howner
        rw [if_neg howner] at h
        cases h
  | occupy player seat stack =>
    rcases t.occupy_cases player seat stack with ⟨_, he⟩ | ⟨_, he, _⟩
    · rw [LifecycleOp.apply, he]
    · rw [LifecycleOp.answer, he] at h; cases h
  | join player seat stack => exact join_refused h
  | joinWithEntry player seat stack entry =>
    simp only [LifecycleOp.answer, LifecycleOp.apply, joinWithEntry] at h ⊢
    cases hj : t.join player seat stack with
    | mk result left =>
      cases result with
      | error error =>
        have hrefused := @join_refused t player seat stack error (by rw [hj])
        rw [hj] at hrefused
        exact hrefused
      | ok _ =>
        rw [hj] at h
        dsimp only at h
        split at h <;> cases h
  | recordMissedBlind player missed =>
    simp only [LifecycleOp.answer, LifecycleOp.apply, recordMissedBlind] at h ⊢
    cases ho : t.ensureOpen with
    | error _ => rfl
    | ok _ =>
      rw [ho] at h
      dsimp only at h ⊢
      split
      · rfl
      rename_i hidle
      rw [if_neg hidle] at h
      split
      · rfl
      · rename_i hseat
        rw [hseat] at h
        cases h
  | requestReturnWithEntry player entry =>
    simp only [LifecycleOp.answer, LifecycleOp.apply, requestReturnWithEntry] at h ⊢
    cases ho : t.ensureOpen with
    | error _ => rfl
    | ok _ =>
      rw [ho] at h
      dsimp only at h ⊢
      split
      · rfl
      rename_i hidle
      rw [if_neg hidle] at h
      split
      · rfl
      · rename_i hseat
        rw [hseat] at h
        cases h
  | setConnection player connection =>
    simp only [LifecycleOp.answer, LifecycleOp.apply, setConnection] at h ⊢
    split
    · rfl
    · rename_i hseat
      rw [hseat] at h
      cases h
  | requestSitOut player => exact requestTransition_refused (Prod.ext h rfl)
  | requestReturn player => exact requestTransition_refused (Prod.ext h rfl)
  | requestLeave player => exact requestTransition_refused (Prod.ext h rfl)
  | beginHand => exact absurd rfl hbegin
  | completeHand finalStacks =>
    rcases t.completeHand_cases finalStacks with ⟨_, he⟩ | ⟨_, _, _, _, _, he⟩
    · rw [LifecycleOp.apply, he]
    · rw [LifecycleOp.answer, he] at h; cases h
  | close =>
    simp only [LifecycleOp.answer, LifecycleOp.apply, close] at h ⊢
    cases ho : t.ensureOpen with
    | error _ => rfl
    | ok _ =>
      rw [ho] at h
      dsimp only at h ⊢
      split
      · rfl
      · rename_i hidle
        rw [if_neg hidle] at h
        cases h

end refusals

/-! ## Who holds what -/

/-- The player of a seat, with the stack. -/
def held (t : TableLifecycle) (p : SeatId) : Option (PlayerId × Nat) := (t.seats.seat p).map fun st => (st.playerId, st.stack)

/-- The player has asked to leave. -/
def leaves (t : TableLifecycle) (player : PlayerId) : Bool := t.pending.find? player = some .leave

section held
variable {t t' : TableLifecycle} {player : PlayerId} {seat p : SeatId} {stack : Nat} {op : LifecycleOp}

theorem playerAt_held (t : TableLifecycle) (p : SeatId) : t.playerAt p = (t.held p).map (·.1) := by
  rw [playerAt, held, Option.map_map]
  rfl

theorem held_none : t.held p = none ↔ t.seats.seat p = none := Option.map_eq_none_iff

theorem held_refresh (t : TableLifecycle) (p : SeatId) : t.refreshBetweenHandState.held p = t.held p := by
  rw [held, refresh_seats, held]

/-- A write that leaves the stack alone. -/
theorem held_modify {f : SeatState → SeatState} {hf} (hstack : ∀ st, (f st).stack = st.stack) (p : SeatId) :
    (t.modifySeat seat f hf).held p = t.held p := by
  rw [held, held, modifySeat, TableSeats.seat_modify]
  split
  · rw [Option.map_map]
    congr 1
    funext st
    rw [Function.comp_apply, hf, hstack]
  · rfl

theorem held_promote (t : TableLifecycle) (p : SeatId) : t.promoteNaturalBigBlindWaiter.held p = t.held p := by
  unfold promoteNaturalBigBlindWaiter
  cases t.promoted with
  | none => rfl
  | some candidate =>
    refine held_modify ?_ p
    exact fun _ => rfl

theorem held_dealHand (t : TableLifecycle) (p : SeatId) : t.dealHand.held p = t.held p := by
  rw [held, seat_dealHand, held]
  split
  · rw [Option.map_map]
    rfl
  · rfl

theorem held_transition (t : TableLifecycle) (player : PlayerId) (transition : PendingSeatTransition) (p : SeatId) :
    (t.applyTransition player transition).held p =
      if transition = .leave ∧ t.playerAt p = some player then none else t.held p := by
  cases transition with
  | leave =>
    rw [held, applyTransition_leave, held]
    by_cases hp : t.playerAt p = some player
    · rw [if_pos hp, if_pos ⟨rfl, hp⟩]
      rfl
    · rw [if_neg hp, if_neg fun h => hp h.2]
  | sitOut | «return» =>
    rw [if_neg (by simp)]
    unfold applyTransition
    cases t.seats.seatForPlayer player with
    | none => rfl
    | some seat =>
      refine held_modify ?_ p
      exact fun _ => rfl

theorem held_transitions (l : List (PlayerId × PendingSeatTransition)) (t : TableLifecycle) (p : SeatId) :
    (l.foldl (fun t (e : PlayerId × PendingSeatTransition) => t.applyTransition e.1 e.2) t).held p =
      if (t.playerAt p).any (fun player => l.any fun e => e.1 = player && e.2 = .leave) = true then none else t.held p := by
  induction l generalizing t with
  | nil => cases t.playerAt p <;> rfl
  | cons e rest ih =>
    rw [List.foldl_cons, ih, playerAt_held, held_transition, playerAt_held]
    cases hp : t.held p with
    | none => simp
    | some held =>
      obtain ⟨player, stack⟩ := held
      simp only [Option.map_some, Option.any_some, List.any_cons, Option.some.injEq]
      by_cases he : e.2 = .leave ∧ player = e.1
      · obtain ⟨hleave, rfl⟩ := he
        simp [hleave]
      · simp only [if_neg he]
        have hfalse : (decide (e.1 = player) && decide (e.2 = .leave)) = false := by
          rw [Bool.and_eq_false_iff]
          by_cases hleave : e.2 = .leave
          · exact Or.inl (decide_eq_false fun h => he ⟨hleave, h.symm⟩)
          · exact Or.inr (decide_eq_false hleave)
        simp [hfalse]

/-- When a hand ends, whoever asked to leave is gone. -/
theorem held_pending (t : TableLifecycle) (p : SeatId) :
    t.applyPending.held p = if (t.playerAt p).any t.leaves = true then none else t.held p := by
  have hleaves : ∀ player, (t.pending.entries.any fun e => decide (e.1 = player) && decide (e.2 = .leave)) = t.leaves player := by
    intro player
    rw [Bool.eq_iff_iff, List.any_eq_true, leaves, decide_eq_true_eq]
    constructor
    · rintro ⟨⟨other, transition⟩, hmem, he⟩
      simp only [Bool.and_eq_true, decide_eq_true_eq] at he
      obtain ⟨rfl, rfl⟩ := he
      exact OrdMap.mem_entries.mp hmem
    · intro hfound
      exact ⟨(player, .leave), OrdMap.mem_entries.mpr hfound, by simp⟩
  refine (held_transitions t.pending.entries { t with pending := .empty } p).trans ?_
  simp only [hleaves]
  rfl

/-- The chips of a seat. -/
def chipsAt (t : TableLifecycle) (p : SeatId) : Nat := ((t.held p).map (·.2)).getD 0

theorem chips_eq (t : TableLifecycle) : t.chips = (t.seats.tableSize.seats.map t.chipsAt).sum := by
  unfold chips TableSeats.occupied
  induction t.seats.tableSize.seats with
  | nil => rfl
  | cons p l ih =>
    rw [List.filterMap_cons, List.map_cons, List.sum_cons, ← ih, chipsAt, held]
    cases t.seats.seat p with
    | none => simp
    | some st => rfl

/-- The chips that leave a seat in a call. -/
def takenAt (op : LifecycleOp) (t : TableLifecycle) (p : SeatId) : Nat :=
  ((t.seats.seat p).map fun st => if ((op.apply t).seats.seat p).isNone then op.finalStack p st else 0).getD 0

theorem taken_eq (op : LifecycleOp) (t : TableLifecycle) :
    op.taken t = (t.seats.tableSize.seats.map (takenAt op t)).sum := by
  unfold LifecycleOp.taken TableSeats.occupied
  induction t.seats.tableSize.seats with
  | nil => rfl
  | cons p l ih =>
    rw [List.filterMap_cons, List.map_cons, List.sum_cons, ← ih, takenAt]
    cases t.seats.seat p with
    | none => simp
    | some st => rfl

/-! ## One call -/

/-- What a call does to the players and their chips: nothing, or a player joins, or one
    leaves, or a hand's stacks are paid out and who asked to leave leaves. -/
inductive Holds (t : TableLifecycle) (op : LifecycleOp) (t' : TableLifecycle) : Prop
  | same : op.brought t = 0 → (∀ p, t'.held p = t.held p) → Holds t op t'
  | joined (player : PlayerId) (seat : SeatId) (stack : Nat) : op.seats t = true → op.brought t = stack → t.activeHand = none →
      t.seats.tableSize.contains seat = true → t.held seat = none →
      (∀ p, t'.held p = if p = seat then some (player, stack) else t.held p) → Holds t op t'
  | left (player : PlayerId) : op.brought t = 0 → t.activeHand = none → (∀ seat st, op.finalStack seat st = st.stack) →
      (∀ p, t'.held p = if t.playerAt p = some player then none else t.held p) → Holds t op t'
  | settled (start : HandStart) (finalStacks : List (SeatId × Nat)) : op = .completeHand finalStacks → t.activeHand = some start →
      t.Takes finalStacks → t'.activeHand = none →
      (∀ p, t'.held p = if (t.playerAt p).any t.leaves = true then none else
        (t.held p).map fun x => (x.1, (finalStacks.lookup p).getD x.2)) → Holds t op t'

theorem brought_zero (h : op.seats t = false) : op.brought t = 0 := by
  unfold LifecycleOp.brought
  split
  · rw [if_neg (by rw [h]; exact Bool.false_ne_true)]
  · rw [if_neg (by rw [h]; exact Bool.false_ne_true)]
  · rw [if_neg (by rw [h]; exact Bool.false_ne_true)]
  · rfl

theorem Moves.holds (hm : Moves t op t') (hseats : op.seats t = false) (hnot : ∀ finalStacks, op ≠ .completeHand finalStacks) :
    Holds t op t' := by
  have hbrought := brought_zero hseats
  have hfinal : ∀ seat st, op.finalStack seat st = st.stack := by
    intro seat st
    unfold LifecycleOp.finalStack
    split
    · exact absurd rfl (hnot _)
    · rfl
  cases hm with
  | same | booked | queued | closed => exact .same hbrought fun _ => rfl
  | seated _ h _ => rw [hseats] at h; cases h
  | entered _ h _ _ => rw [hseats] at h; cases h
  | owed | linked =>
    refine .same hbrought fun p => held_modify ?_ p
    exact fun _ => rfl
  | returned =>
    refine .same hbrought fun p => (held_refresh _ p).trans (held_modify ?_ p)
    exact fun _ => rfl
  | passed _ player transition _ hidle _ =>
    by_cases hleave : transition = .leave
    · refine .left player hbrought hidle hfinal fun p => ?_
      rw [held_refresh, held_transition]
      simp [hleave]
    · refine .same hbrought fun p => ?_
      rw [held_refresh, held_transition, if_neg fun h => hleave h.1]
  | short => exact .same hbrought fun p => held_promote t p
  | dealt => exact .same hbrought fun p => (held_dealHand _ p).trans (held_promote t p)
  | completed => exact absurd rfl (hnot _)

theorem Seats.held (hs : Seats t player seat stack t') (p : SeatId) :
    t'.held p = if p = seat then some (player, stack) else t.held p := by
  have henters := hs.enters
  split
  · rename_i hp
    obtain ⟨st, hst, hplayer, hstack⟩ := henters.taken
    rw [TableLifecycle.held, hp, hst, Option.map_some, hplayer, hstack]
  · rw [TableLifecycle.held, henters.others p ‹_›, TableLifecycle.held]

theorem Seats.inside (hs : Seats t player seat stack t') : t.seats.tableSize.contains seat = true := by
  obtain ⟨_, _, hocc, _⟩ := hs.taken
  exact (TableSeats.occupy_ok hocc).1

/-- The stacks of a hand written into the seats. -/
theorem held_settled {finalStacks : List (SeatId × Nat)} {actual : OrdMap SeatId Nat}
    (hactual : ∀ q, actual.find? q = finalStacks.lookup q) (p : SeatId) : held { t with
      seats := actual.entries.foldl (fun seats (seat, stack) => seats.modify seat (settleSeat stack) fun _ => rfl) t.seats
      activeHand := none } p = (t.held p).map fun x => (x.1, (finalStacks.lookup p).getD x.2) := by
  have hseat := (TableSeats.seat_foldl_modify settleSeat (fun _ _ => rfl) actual.entries OrdMap.nodup_keys t.seats).2 p
  rw [show actual.entries.lookup p = finalStacks.lookup p from hactual p] at hseat
  rw [held, held, Option.map_map]
  refine (congrArg (Option.map _) hseat).trans ?_
  cases finalStacks.lookup p with
  | none => cases t.seats.seat p <;> rfl
  | some stack => cases t.seats.seat p <;> rfl

/-- The call that ends a hand. -/
theorem completes_step (h : op.completes t = true) : ∃ start finalStacks, op = .completeHand finalStacks ∧
    t.activeHand = some start ∧ t.Takes finalStacks ∧ (op.apply t).activeHand = none ∧
      ∀ p, (op.apply t).held p = if (t.playerAt p).any t.leaves = true then none else
        (t.held p).map fun x => (x.1, (finalStacks.lookup p).getD x.2) := by
  cases op with
  | completeHand finalStacks =>
    rcases t.completeHand_cases finalStacks with ⟨_, he⟩ | ⟨start, actual, hstart, htakes, hactual, he⟩
    · rw [LifecycleOp.completes, he] at h; cases h
    · refine ⟨start, finalStacks, rfl, hstart, htakes, ?_, fun p => ?_⟩
      · rw [LifecycleOp.apply, he, refresh_frame, applyPending_frame]
      · have hheld := @held_settled t finalStacks actual hactual
        rw [LifecycleOp.apply, he, held_refresh, held_pending, playerAt_held, hheld p, Option.map_map, playerAt_held]
        rfl
  | _ => cases h

theorem apply_holds (t : TableLifecycle) (op : LifecycleOp) : Holds t op (op.apply t) := by
  cases hseats : op.seats t with
  | true =>
    cases op with
    | occupy player seat stack =>
      have hbrought : (LifecycleOp.occupy player seat stack).brought t = stack := if_pos hseats
      rcases t.occupy_cases player seat stack with ⟨_, he⟩ | ⟨_, he, hs⟩
      · rw [LifecycleOp.seats, he] at hseats; cases hseats
      · rw [LifecycleOp.apply, he]
        exact .joined player seat stack hseats hbrought hs.idle hs.inside (held_none.mpr hs.free) hs.held
    | join player seat stack =>
      have hbrought : (LifecycleOp.join player seat stack).brought t = stack := if_pos hseats
      rcases t.join_cases player seat stack with ⟨_, _, he⟩ | ⟨_, he, hs⟩
      · rw [LifecycleOp.seats, he] at hseats; cases hseats
      · rw [LifecycleOp.apply, he]
        exact .joined player seat stack hseats hbrought hs.idle hs.inside (held_none.mpr hs.free) hs.held
    | joinWithEntry player seat stack entry =>
      have hbrought : (LifecycleOp.joinWithEntry player seat stack entry).brought t = stack := if_pos hseats
      rcases t.joinWithEntry_cases player seat stack entry with ⟨_, _, he⟩ | ⟨t', hs, ⟨_, he⟩ | ⟨_, he⟩⟩
      · rw [LifecycleOp.seats, he] at hseats; cases hseats
      · rw [LifecycleOp.apply, he]
        exact .joined player seat stack hseats hbrought hs.idle hs.inside (held_none.mpr hs.free) hs.held
      · rw [LifecycleOp.apply, he]
        refine .joined player seat stack hseats hbrought hs.idle hs.inside (held_none.mpr hs.free) fun p => ?_
        rw [← hs.held p]
        refine (held_refresh _ p).trans (held_modify ?_ p)
        exact fun _ => rfl
    | _ => cases hseats
  | false =>
    by_cases hcomplete : ∃ finalStacks, op = .completeHand finalStacks
    · obtain ⟨finalStacks, rfl⟩ := hcomplete
      cases hcomplete : (LifecycleOp.completeHand finalStacks).completes t with
      | true =>
        obtain ⟨start, finalStacks', he, hstart, htakes, hidle, hheld⟩ := completes_step hcomplete
        exact .settled start finalStacks' he hstart htakes hidle hheld
      | false =>
        rcases t.completeHand_cases finalStacks with ⟨_, he⟩ | ⟨_, _, _, _, _, he⟩
        · rw [LifecycleOp.apply, he]
          exact .same rfl fun _ => rfl
        · rw [LifecycleOp.completes, he] at hcomplete
          cases hcomplete
    · exact (t.apply_moves op).holds hseats fun finalStacks h => hcomplete ⟨finalStacks, h⟩

/-- During a hand a call ends it, or leaves it, its players and what they asked for. -/
theorem busy_step {start : HandStart} (hactive : t.activeHand = some start) (hnot : op.completes t = false) :
    (op.apply t).activeHand = some start ∧ (∀ p, (op.apply t).held p = t.held p) ∧
      ∀ player, t.leaves player = true → (op.apply t).leaves player = true := by
  have hbusy : t.handActive = true := by rw [handActive, hactive]; rfl
  have hidle : t.activeHand ≠ none := by rw [hactive]; simp
  have hsame : t.activeHand = some start ∧ (∀ p, t.held p = t.held p) ∧
      ∀ player, t.leaves player = true → t.leaves player = true :=
    ⟨hactive, fun _ => rfl, fun _ h => h⟩
  have hbooked : ∀ reservations, TableLifecycle.activeHand { t with reservations := reservations } = some start ∧
      (∀ p, TableLifecycle.held { t with reservations := reservations } p = t.held p) ∧
      ∀ player, t.leaves player = true → TableLifecycle.leaves { t with reservations := reservations } player = true :=
    fun _ => ⟨hactive, fun _ => rfl, fun _ h => h⟩
  have hrequest : ∀ player transition, (t.requestTransition player transition).2.activeHand = some start ∧
      (∀ p, (t.requestTransition player transition).2.held p = t.held p) ∧
      ∀ other, t.leaves other = true → (t.requestTransition player transition).2.leaves other = true := by
    intro player transition
    rcases t.requestTransition_cases player transition with ⟨_, he⟩ | ⟨_, _, ⟨_, _, he⟩ | ⟨_, hprior, he⟩ | ⟨hnone, _, _⟩⟩
    · rw [he]; exact hsame
    · rw [he]; exact hsame
    · rw [he]
      refine ⟨hactive, fun _ => rfl, fun other hother => ?_⟩
      have hfound : t.pending.find? other = some .leave := of_decide_eq_true hother
      have hne : other ≠ player := fun he => hprior (he ▸ hfound)
      exact decide_eq_true ((OrdMap.find_insert_ne hne).trans hfound)
    · exact absurd hnone hidle
  cases op with
  | reserve player seat =>
    rcases t.reserve_cases player seat with ⟨_, he⟩ | ⟨he, _⟩
    · rw [LifecycleOp.apply, he]; exact hsame
    · rw [LifecycleOp.apply, he]; exact hbooked _
  | cancelReservation player seat =>
    simp only [LifecycleOp.apply, cancelReservation]
    split
    · exact hsame
    · exact hsame
    · split
      · exact hsame
      · exact hbooked _
  | occupy player seat stack =>
    rcases t.occupy_cases player seat stack with ⟨_, he⟩ | ⟨_, _, hs⟩
    · rw [LifecycleOp.apply, he]; exact hsame
    · exact absurd hs.idle hidle
  | join player seat stack =>
    rcases t.join_cases player seat stack with ⟨_, _, he⟩ | ⟨_, _, hs⟩
    · rw [LifecycleOp.apply, he]; exact hbooked _
    · exact absurd hs.idle hidle
  | joinWithEntry player seat stack entry =>
    rcases t.joinWithEntry_cases player seat stack entry with ⟨_, _, he⟩ | ⟨_, hs, _⟩
    · rw [LifecycleOp.apply, he]; exact hbooked _
    · exact absurd hs.idle hidle
  | recordMissedBlind player missed =>
    simp only [LifecycleOp.apply, recordMissedBlind]
    split
    · exact hsame
    · rw [if_pos hbusy]; exact hsame
  | requestReturnWithEntry player entry =>
    simp only [LifecycleOp.apply, requestReturnWithEntry]
    split
    · exact hsame
    · rw [if_pos hbusy]; exact hsame
  | setConnection player connection =>
    simp only [LifecycleOp.apply, setConnection]
    split
    · exact hsame
    · refine ⟨hactive, fun p => held_modify ?_ p, fun _ h => h⟩
      exact fun _ => rfl
  | requestSitOut player => exact hrequest player .sitOut
  | requestReturn player => exact hrequest player .return
  | requestLeave player => exact hrequest player .leave
  | beginHand =>
    rcases t.beginHand_cases with ⟨_, _, he⟩ | ⟨h, _⟩
    · rw [LifecycleOp.apply, he]; exact hsame
    · exact absurd h hidle
  | completeHand finalStacks =>
    rcases t.completeHand_cases finalStacks with ⟨_, he⟩ | ⟨_, _, _, _, _, he⟩
    · rw [LifecycleOp.apply, he]; exact hsame
    · rw [LifecycleOp.completes, he] at hnot
      cases hnot
  | close =>
    simp only [LifecycleOp.apply, close]
    split
    · exact hsame
    · rw [if_pos hbusy]; exact hsame

/-! ## Every table reached -/

structure Reserved (t : TableLifecycle) : Prop where
  once : ∀ p q player, t.reservations.find? p = some player → t.reservations.find? q = some player → p = q
  vacant : ∀ p player, t.reservations.find? p = some player → t.playerAt p = none
  stranger : ∀ p q player, t.reservations.find? p = some player → t.playerAt q ≠ some player

theorem Reserved.fewer (hr : t.Reserved)
    (hreservations : ∀ p player, t'.reservations.find? p = some player → t.reservations.find? p = some player)
    (hplayers : ∀ p player, t'.playerAt p = some player → t.playerAt p = some player) : t'.Reserved := by
  refine ⟨fun p q player hp hq => hr.once p q player (hreservations p player hp) (hreservations q player hq), ?_, ?_⟩
  · intro p player hp
    rw [Option.eq_none_iff_forall_ne_some]
    intro other hother
    have := hr.vacant p player (hreservations p player hp)
    rw [hplayers p other hother] at this
    cases this
  · exact fun p q player hp hq => hr.stranger p q player (hreservations p player hp) (hplayers q player hq)

theorem Reserved.reserve (hr : t.Reserved) (h : (t.reserve player seat).1 = .ok ()) :
    Reserved { t with reservations := t.reservations.insert seat player } := by
  obtain ⟨_, _, hpresent, hfree, _⟩ := reserve_ok_iff.mp h
  obtain ⟨hstranger, hunbooked⟩ := identityPresent_iff.mp hpresent
  refine ⟨?_, ?_, ?_⟩
  · intro p q owner hp hq
    rw [OrdMap.find_insert] at hp hq
    split at hp
    · rename_i he
      cases hp
      split at hq
      · rename_i he'
        exact he.trans he'.symm
      · exact absurd hq (hunbooked q)
    · split at hq
      · cases hq
        exact absurd hp (hunbooked p)
      · exact hr.once p q owner hp hq
  · intro p owner hp
    rw [OrdMap.find_insert] at hp
    split at hp
    · rename_i he
      exact playerAt_none.mpr (he ▸ hfree)
    · exact hr.vacant p owner hp
  · intro p q owner hp
    rw [OrdMap.find_insert] at hp
    split at hp
    · cases hp
      exact hstranger q
    · exact hr.stranger p q owner hp

theorem occupy_owner (h : t.occupy player seat stack = (.ok (), t')) : t.reservations.find? seat = some player := by
  unfold occupy at h
  split at h
  · cases h
  split at h
  · cases h
  split at h
  · cases h
  split at h
  · cases h
  split at h
  · cases h
  split at h
  · cases h
  split at h
  · cases h
  rename_i howner hsame
  rw [howner, not_not.mp hsame]

theorem Reserved.occupy (hr : t.Reserved) (h : t.occupy player seat stack = (.ok (), t')) : t'.Reserved := by
  have howner := occupy_owner h
  have hleft := occupy_reservations h
  have hplayer : ∀ p, t'.playerAt p = if p = seat then some player else t.playerAt p := by
    intro p
    rcases t.occupy_cases player seat stack with ⟨_, he⟩ | ⟨_, he, hs⟩
    · rw [he] at h; cases h
    · rw [he] at h
      cases h
      exact hs.enters.playerAt p
  have hkept : ∀ p other, t'.reservations.find? p = some other → p ≠ seat ∧ t.reservations.find? p = some other := by
    intro p other hp
    rw [hleft, OrdMap.find_erase] at hp
    split at hp
    · cases hp
    · exact ⟨‹_›, hp⟩
  refine ⟨?_, ?_, ?_⟩
  · exact fun p q other hp hq => hr.once p q other (hkept p other hp).2 (hkept q other hq).2
  · intro p other hp
    obtain ⟨hne, hp⟩ := hkept p other hp
    rw [hplayer, if_neg hne]
    exact hr.vacant p other hp
  · intro p q other hp hq
    obtain ⟨hne, hp⟩ := hkept p other hp
    rw [hplayer] at hq
    split at hq
    · cases hq
      exact hne (hr.once p seat player hp howner)
    · exact hr.stranger p q other hp hq

theorem Reserved.join (hr : t.Reserved) (h : t.join player seat stack = (.ok (), t')) : t'.Reserved := by
  unfold TableLifecycle.join at h
  split at h
  · cases h
  rcases t.reserve_cases player seat with ⟨_, he⟩ | ⟨he, _⟩
  · rw [he] at h; cases h
  · have hbooked := hr.reserve (congrArg Prod.fst he)
    rw [he] at h
    dsimp only at h
    cases ho : TableLifecycle.occupy { t with reservations := t.reservations.insert seat player } player seat stack with
    | mk result left =>
      rw [ho] at h
      cases result with
      | error error => cases h
      | ok _ =>
        cases h
        exact hbooked.occupy ho

theorem requestTransition_reservations (t : TableLifecycle) (player : PlayerId) (transition : PendingSeatTransition) :
    (t.requestTransition player transition).2.reservations = t.reservations := by
  rcases t.requestTransition_cases player transition with ⟨_, he⟩ | ⟨_, _, ⟨_, _, he⟩ | ⟨_, _, he⟩ | ⟨_, _, he⟩⟩
  · rw [he]
  · rw [he]
  · rw [he]
  · rw [he, refresh_frame, applyTransition_frame]

/-- A call that seats nobody and adds no reservation. -/
theorem Reserved.unseated (hr : t.Reserved) (hseats : op.seats t = false) (hreservations : ∀ p player,
    (op.apply t).reservations.find? p = some player → t.reservations.find? p = some player) : (op.apply t).Reserved := by
  refine hr.fewer hreservations fun p player hp => ?_
  rw [playerAt_held] at hp ⊢
  cases t.apply_holds op with
  | same _ hheld => rwa [hheld] at hp
  | joined _ _ _ hjoins => rw [hseats] at hjoins; cases hjoins
  | left _ _ _ _ hheld =>
    rw [hheld] at hp
    split at hp
    · cases hp
    · exact hp
  | settled _ _ _ _ _ _ hheld =>
    rw [hheld] at hp
    split at hp
    · cases hp
    · rwa [Option.map_map] at hp

theorem Reserved.joinWithEntry (hr : t.Reserved) (player : PlayerId) (seat : SeatId) (stack : Nat) (entry : RingEntryChoice) :
    (t.joinWithEntry player seat stack entry).2.Reserved := by
  unfold TableLifecycle.joinWithEntry
  cases hj : t.join player seat stack with
  | mk result left =>
    cases result with
    | error error =>
      have hrefused := @join_refused t player seat stack error (by rw [hj])
      rw [hj] at hrefused
      exact hrefused ▸ hr
    | ok _ =>
      have hjoined := hr.join hj
      dsimp only
      split
      · refine hjoined.fewer (fun p owner hp => by rwa [refresh_frame] at hp) fun p owner hp => ?_
        have hentering : (left.modifySeat seat (entering entry) fun _ => rfl).held p = left.held p := by
          refine held_modify ?_ p
          exact fun _ => rfl
        rw [playerAt_held, held_refresh] at hp
        rw [playerAt_held, ← hentering]
        exact hp
      · exact hjoined

theorem Reserved.step (hr : t.Reserved) (op : LifecycleOp) : (op.apply t).Reserved := by
  cases op with
  | reserve player seat =>
    rcases t.reserve_cases player seat with ⟨_, he⟩ | ⟨he, _⟩
    · rw [LifecycleOp.apply, he]; exact hr
    · rw [LifecycleOp.apply, he]; exact hr.reserve (congrArg Prod.fst he)
  | cancelReservation player seat =>
    refine hr.unseated rfl fun p owner hp => ?_
    simp only [LifecycleOp.apply, cancelReservation] at hp
    split at hp
    · exact hp
    · exact hp
    split at hp
    · exact hp
    · dsimp only at hp
      rw [OrdMap.find_erase] at hp
      split at hp
      · cases hp
      · exact hp
  | occupy player seat stack =>
    rcases t.occupy_cases player seat stack with ⟨_, he⟩ | ⟨_, he, _⟩
    · rw [LifecycleOp.apply, he]; exact hr
    · rw [LifecycleOp.apply, he]; exact hr.occupy he
  | join player seat stack =>
    rcases t.join_cases player seat stack with ⟨_, _, he⟩ | ⟨_, he, _⟩
    · rw [t.refuses (.join player seat stack) (by simp) (congrArg Prod.fst he)]; exact hr
    · rw [LifecycleOp.apply, he]; exact hr.join he
  | joinWithEntry player seat stack entry => exact hr.joinWithEntry player seat stack entry
  | recordMissedBlind player missed =>
    refine hr.unseated rfl fun p owner hp => ?_
    simp only [LifecycleOp.apply, recordMissedBlind] at hp
    split at hp
    · exact hp
    split at hp
    · exact hp
    split at hp
    · exact hp
    · exact hp
  | requestReturnWithEntry player entry =>
    refine hr.unseated rfl fun p owner hp => ?_
    simp only [LifecycleOp.apply, requestReturnWithEntry] at hp
    split at hp
    · exact hp
    split at hp
    · exact hp
    split at hp
    · exact hp
    · rwa [refresh_frame] at hp
  | setConnection player connection =>
    refine hr.unseated rfl fun p owner hp => ?_
    simp only [LifecycleOp.apply, setConnection] at hp
    split at hp
    · exact hp
    · exact hp
  | requestSitOut player => exact hr.unseated rfl fun p owner hp => (t.requestTransition_reservations player .sitOut) ▸ hp
  | requestReturn player => exact hr.unseated rfl fun p owner hp => (t.requestTransition_reservations player .return) ▸ hp
  | requestLeave player => exact hr.unseated rfl fun p owner hp => (t.requestTransition_reservations player .leave) ▸ hp
  | beginHand =>
    refine hr.unseated rfl fun p owner hp => ?_
    have hframe := t.promote_frame
    rcases t.beginHand_cases with ⟨_, _, he⟩ | ⟨_, _, ⟨_, he⟩ | ⟨_, he⟩⟩
    · rwa [LifecycleOp.apply, he] at hp
    · rw [LifecycleOp.apply, he, hframe] at hp; exact hp
    · rw [LifecycleOp.apply, he, hframe] at hp; exact hp
  | completeHand finalStacks =>
    refine hr.unseated rfl fun p owner hp => ?_
    rcases t.completeHand_cases finalStacks with ⟨_, he⟩ | ⟨_, _, _, _, _, he⟩
    · rwa [LifecycleOp.apply, he] at hp
    · rw [LifecycleOp.apply, he, refresh_frame, applyPending_frame] at hp
      exact hp
  | close =>
    refine hr.unseated rfl fun p owner hp => ?_
    simp only [LifecycleOp.apply, close] at hp
    split at hp
    · exact hp
    split at hp
    · exact hp
    · cases hp

/-- The seats of a hand hold what they were dealt in with. -/
def DealtIn (t : TableLifecycle) : Prop := ∀ start, t.activeHand = some start → (start.seatStacks.map (·.1)).Nodup ∧
  ∀ e ∈ start.seatStacks, ∃ player, t.held e.1 = some (player, e.2)

theorem dealHand_dealtIn (t : TableLifecycle) : t.dealHand.DealtIn := by
  intro start hstart
  obtain rfl : t.handStart = start := Option.some.inj hstart
  refine ⟨t.nodup_dealtStacks, fun e he => ?_⟩
  obtain ⟨⟨p, st⟩, hmem, rfl⟩ := List.mem_map.mp he
  have hst := t.seats.mem_occupied.mp (List.mem_filter.mp hmem).1
  refine ⟨st.playerId, ?_⟩
  rw [held_dealHand, held, hst]
  rfl

/-- What is pending is pending during a hand, and reservations and players of a hand are in order. -/
structure Orderly (t : TableLifecycle) : Prop where
  reserved : t.Reserved
  dealtIn : t.DealtIn
  idle : t.activeHand = none → t.pending = .empty

theorem Moves.waits (hm : Moves t op t') (hpending : t.activeHand = none → t.pending = .empty) :
    (t'.activeHand = none → t'.pending = .empty) ∧ (t.activeHand = none → t'.DealtIn) := by
  have hnone : ∀ {k : TableLifecycle}, k.activeHand = none → k.DealtIn := by
    intro k hk start hstart
    rw [hk] at hstart
    cases hstart
  have hseats : ∀ {player seat stack t'}, Seats t player seat stack t' → t'.activeHand = none ∧ t'.pending = .empty := by
    intro player seat stack t' hs
    exact ⟨hs.enters.idle', hs.enters.pending.trans (hpending hs.idle)⟩
  cases hm with
  | same | booked => exact ⟨hpending, fun h => hnone h⟩
  | seated _ _ hs => exact ⟨fun _ => (hseats hs).2, fun _ => hnone (hseats hs).1⟩
  | entered _ _ hs _ =>
    refine ⟨fun _ => ?_, fun _ => hnone ?_⟩
    · rw [refresh_frame]; exact (hseats hs).2
    · rw [refresh_frame]; exact (hseats hs).1
  | owed _ _ _ _ _ | linked _ _ _ => exact ⟨hpending, fun h => hnone h⟩
  | returned _ _ _ hidle _ =>
    refine ⟨fun _ => ?_, fun _ => hnone ?_⟩
    · rw [refresh_frame]; exact hpending hidle
    · rw [refresh_frame]; exact hidle
  | passed _ _ _ _ hidle _ =>
    refine ⟨fun _ => ?_, fun _ => hnone ?_⟩
    · rw [refresh_frame, applyTransition_frame]; exact hpending hidle
    · rw [refresh_frame, applyTransition_frame]; exact hidle
  | queued _ _ _ _ hbusy =>
    have hactive : t.activeHand ≠ none := fun h => by rw [handActive, h] at hbusy; cases hbusy
    exact ⟨fun h => absurd h hactive, fun h => absurd h hactive⟩
  | short hidle _ _ =>
    have hframe := t.promote_frame
    refine ⟨fun _ => ?_, fun _ => hnone ?_⟩
    · rw [hframe]; exact hpending hidle
    · rw [hframe]; exact hidle
  | dealt => exact ⟨(fun h => by cases h), fun _ => dealHand_dealtIn _⟩
  | completed _ _ _ hactive =>
    refine ⟨fun _ => ?_, fun h => absurd h (by rw [hactive]; simp)⟩
    rw [refresh_frame, applyPending_frame]
  | closed hidle => exact ⟨fun _ => rfl, fun _ => hnone hidle⟩

theorem Orderly.step (ho : t.Orderly) (op : LifecycleOp) : (op.apply t).Orderly := by
  obtain ⟨hpending, hdealt⟩ := (t.apply_moves op).waits ho.idle
  refine ⟨ho.reserved.step op, ?_, hpending⟩
  cases hactive : t.activeHand with
  | none => exact hdealt hactive
  | some start =>
    cases hcomplete : op.completes t with
    | true =>
      obtain ⟨_, _, _, _, _, hidle, _⟩ := completes_step hcomplete
      intro other hother
      rw [hidle] at hother
      cases hother
    | false =>
      obtain ⟨hsame, hheld, _⟩ := busy_step hactive hcomplete
      intro other hother
      obtain rfl := Option.some.inj (hsame.symm.trans hother)
      obtain ⟨hnodup, hstacks⟩ := ho.dealtIn start hactive
      exact ⟨hnodup, fun e he => by rw [hheld]; exact hstacks e he⟩

/-! ## The chips -/

/-- A hand's final stacks are its seats' and what was dealt. -/
theorem takes_iff {finalStacks : List (SeatId × Nat)} (ho : t.DealtIn) : t.Takes finalStacks ↔
    ∃ start, t.activeHand = some start ∧ (finalStacks.map (·.1)).Perm (start.seatStacks.map (·.1)) ∧
      (finalStacks.map (·.2)).sum = (start.seatStacks.map (·.2)).sum ∧ (start.seatStacks.map (·.2)).sum ≤ u32Max := by
  have hsum : ∀ start, t.activeHand = some start → (TournamentController.stacksBySeat start.seatStacks).values.sum =
      (start.seatStacks.map (·.2)).sum := by
    intro start hstart
    have hnodup := (ho start hstart).1
    have hperm : (TournamentController.stacksBySeat start.seatStacks).entries.Perm start.seatStacks := by
      refine OrdMap.perm_entries hnodup fun q => ?_
      exact (OrdMap.find_collect hnodup .empty q).trans Option.or_none
    exact (hperm.map Prod.snd).sum_eq
  constructor
  · rintro ⟨start, hstart, hnodup, hseats, htotal, hfits⟩
    rw [hsum start hstart] at htotal
    exact ⟨start, hstart, (List.perm_ext_iff_of_nodup hnodup (ho start hstart).1).mpr hseats,
      htotal.symm, by rw [htotal]; exact hfits⟩
  · rintro ⟨start, hstart, hperm, htotal, hfits⟩
    refine ⟨start, hstart, hperm.nodup_iff.mpr (ho start hstart).1, fun q => hperm.mem_iff, ?_, by rw [htotal]; exact hfits⟩
    rw [hsum start hstart, htotal]

theorem takenAt_eq (op : LifecycleOp) (t : TableLifecycle) (p : SeatId) : takenAt op t p =
    if (op.apply t).held p = none then ((t.seats.seat p).map (op.finalStack p)).getD 0 else 0 := by
  rw [takenAt]
  by_cases hgone : (op.apply t).held p = none
  · rw [if_pos hgone, held_none.mp hgone]
    rfl
  · have hstays : ((op.apply t).seats.seat p).isNone = false := by
      rw [Bool.eq_false_iff]
      exact fun h => hgone (held_none.mpr (Option.isNone_iff_eq_none.mp h))
    rw [if_neg hgone, hstays]
    cases t.seats.seat p <;> rfl

/-- A seat whose player stays gives no chips away. -/
theorem takenAt_zero (h : t.held p ≠ none → (op.apply t).held p ≠ none) : takenAt op t p = 0 := by
  rw [takenAt_eq]
  split
  · rename_i hgone
    have hempty : t.held p = none := by
      by_contra hheld
      exact h hheld hgone
    rw [held_none.mp hempty]
    rfl
  · rfl

/-- What is paid out at one seat when a hand ends. -/
theorem settledAt {start : HandStart} {finalStacks : List (SeatId × Nat)} (ho : t.DealtIn) (hstart : t.activeHand = some start)
    (htakes : t.Takes finalStacks) (hop : op = .completeHand finalStacks)
    (hheld : ∀ p, (op.apply t).held p = if (t.playerAt p).any t.leaves = true then none else
      (t.held p).map fun x => (x.1, (finalStacks.lookup p).getD x.2)) (p : SeatId) :
    (op.apply t).chipsAt p + takenAt op t p + Ledger.credited start.seatStacks p =
      t.chipsAt p + Ledger.credited finalStacks p := by
  obtain ⟨other, hother, hnodup, hseats, _⟩ := htakes
  obtain rfl := Option.some.inj (hstart.symm.trans hother)
  obtain ⟨hdealt, hstacks⟩ := ho start hstart
  have hkeys : (finalStacks.lookup p).isSome = (start.seatStacks.lookup p).isSome := by
    have hin : ∀ l : List (SeatId × Nat), (l.lookup p).isSome = true ↔ p ∈ l.map (·.1) := by
      intro l
      rw [List.lookup_isSome_iff, List.mem_map]
      exact exists_congr fun e => and_congr_right fun _ => by rw [beq_iff_eq, eq_comm]
    rw [Bool.eq_iff_iff, hin, hin]
    exact hseats p
  rw [Ledger.credited_eq_lookup hdealt, Ledger.credited_eq_lookup hnodup]
  cases hseat : t.seats.seat p with
  | none =>
    have hnone : t.held p = none := held_none.mpr hseat
    have hundealt : start.seatStacks.lookup p = none := by
      cases hl : start.seatStacks.lookup p with
      | none => rfl
      | some n =>
        obtain ⟨player, hp⟩ := hstacks (p, n) ((OrdMap.mem_lookup hdealt).mp hl)
        rw [hnone] at hp
        cases hp
    have hunpaid : finalStacks.lookup p = none := by simpa [hundealt] using hkeys
    rw [takenAt_zero fun h => absurd hnone h, chipsAt, chipsAt, hheld, hnone, hundealt, hunpaid]
    split <;> rfl
  | some st =>
    have hp : t.held p = some (st.playerId, st.stack) := by rw [held, hseat]; rfl
    have hpaid : (op.apply t).chipsAt p + takenAt op t p = (finalStacks.lookup p).getD st.stack := by
      rw [chipsAt, takenAt_eq, hheld, hp]
      split
      · rw [if_pos rfl, hseat, hop]
        exact Nat.zero_add _
      · rw [if_neg (by simp)]
        rfl
    have hchips : t.chipsAt p = st.stack := by rw [chipsAt, hp]; rfl
    rw [hpaid, hchips]
    cases hl : start.seatStacks.lookup p with
    | none =>
      have hunpaid : finalStacks.lookup p = none := by simpa [hl] using hkeys
      rw [hunpaid]
      rfl
    | some n =>
      obtain ⟨player, hp'⟩ := hstacks (p, n) ((OrdMap.mem_lookup hdealt).mp hl)
      obtain rfl : st.stack = n := (Prod.mk.inj (Option.some.inj (hp.symm.trans hp'))).2
      obtain ⟨m, hm⟩ := Option.isSome_iff_exists.mp (by rw [hkeys, hl]; rfl)
      rw [hm]
      exact Nat.add_comm _ _

/-- Chips come and go with players only. -/
theorem Orderly.ledger (ho : t.Orderly) (op : LifecycleOp) : (op.apply t).chips + op.taken t = t.chips + op.brought t := by
  have hseated : ∀ p, t.held p ≠ none → p ∈ t.seats.tableSize.seats := by
    intro p hp
    cases hseat : t.seats.seat p with
    | none => exact absurd (held_none.mpr hseat) hp
    | some st => exact t.seats.tableSize.mem_seats.mpr (by simpa [TableSize.contains] using t.seats.inside p st hseat)
  rw [chips_eq, chips_eq, taken_eq, (t.apply_moves op).size, ← List.sum_map_add]
  cases t.apply_holds op with
  | same hbrought hheld =>
    rw [hbrought, Nat.add_zero]
    refine congrArg List.sum (List.map_congr_left fun p _ => ?_)
    rw [takenAt_zero fun h => by rwa [hheld], chipsAt, hheld]
    rfl
  | left player hbrought _ hfinal hheld =>
    rw [hbrought, Nat.add_zero]
    refine congrArg List.sum (List.map_congr_left fun p _ => ?_)
    by_cases hp : t.playerAt p = some player
    · obtain ⟨st, hst, _⟩ := playerAt_some.mp hp
      rw [takenAt_eq, chipsAt, hheld, if_pos hp, if_pos rfl, hst, chipsAt, held, hst]
      show 0 + op.finalStack p st = st.stack
      rw [hfinal, Nat.zero_add]
    · rw [takenAt_zero fun h => by rwa [hheld, if_neg hp], chipsAt, hheld, if_neg hp]
      rfl
  | joined player seat stack _ hbrought _ hin hfree hheld =>
    have hnone : ∀ p, takenAt op t p = 0 := by
      intro p
      refine takenAt_zero fun h => ?_
      rw [hheld]
      split
      · simp
      · exact h
    have hmem : seat ∈ t.seats.tableSize.seats := t.seats.tableSize.mem_seats.mpr (by simpa [TableSize.contains] using hin)
    have hmoved := @Ledger.sum_update _ _ t.seats.tableSize.nodup_seats seat hmem t.chipsAt (op.apply t).chipsAt fun p _ hp => by
      rw [chipsAt, hheld, if_neg hp, chipsAt]
    have hempty : t.chipsAt seat = 0 := by rw [chipsAt, hfree]; rfl
    have hnew : (op.apply t).chipsAt seat = stack := by rw [chipsAt, hheld, if_pos rfl]; rfl
    simp only [hnone, Nat.add_zero]
    rw [hempty, hnew, Nat.add_zero] at hmoved
    rw [hbrought]
    exact hmoved
  | settled start finalStacks hop hstart htakes _ hheld =>
    have hbrought : op.brought t = 0 := by rw [hop]; rfl
    have hsum := congrArg List.sum (List.map_congr_left fun p (_ : p ∈ t.seats.tableSize.seats) =>
      settledAt ho.dealtIn hstart htakes hop hheld p)
    obtain ⟨other, hother, hperm, htotal, _⟩ := (takes_iff ho.dealtIn).mp htakes
    obtain rfl := Option.some.inj (hstart.symm.trans hother)
    have hmembers : ∀ e ∈ start.seatStacks, e.1 ∈ t.seats.tableSize.seats := by
      intro e he
      obtain ⟨player, hp⟩ := (ho.dealtIn start hstart).2 e he
      exact hseated e.1 (by rw [hp]; simp)
    have hpaid : ∀ e ∈ finalStacks, e.1 ∈ t.seats.tableSize.seats := by
      intro e he
      obtain ⟨e', he', heq⟩ := List.mem_map.mp (hperm.mem_iff.mp (List.mem_map_of_mem he))
      exact heq ▸ hmembers e' he'
    rw [List.sum_map_add, List.sum_map_add, List.sum_map_add, Ledger.sum_credited t.seats.tableSize.nodup_seats hmembers,
      Ledger.sum_credited t.seats.tableSize.nodup_seats hpaid, htotal] at hsum
    rw [hbrought, Nat.add_zero, List.sum_map_add]
    exact Nat.add_right_cancel hsum

/-! ## Every run -/

theorem Starts.orderly (hs : t.Starts) : t.Orderly := by
  have hnew : ∀ k : TableLifecycle, k.reservations = .empty → k.pending = .empty → k.activeHand = none → k.Orderly := by
    intro k hreservations hpending hactive
    have hnone : ∀ p player, k.reservations.find? p ≠ some player := by
      intro p player hp
      rw [hreservations] at hp
      cases hp
    refine ⟨⟨fun p _ player hp => absurd hp (hnone p player), fun p player hp => absurd hp (hnone p player),
      fun p _ player hp => absurd hp (hnone p player)⟩, fun start hstart => ?_, fun _ => hpending⟩
    rw [hactive] at hstart
    cases hstart
  cases hs with
  | new tableSize => exact hnew _ rfl rfl rfl
  | restored checkpoint _ h =>
    unfold restoreBetweenHand at h
    split at h
    · cases h
    split at h
    · cases h
    · dsimp only at h
      split at h
      · cases h
        exact hnew _ rfl rfl rfl
      · cases h

theorem Orderly.run (ho : t.Orderly) (ops : List LifecycleOp) : (t.run ops).Orderly := by
  induction ops generalizing t with
  | nil => exact ho
  | cons op ops ih => exact ih (ho.step op)

/-- A run that ends no hand leaves the hand and its players. -/
theorem busy_run {start : HandStart} (hactive : t.activeHand = some start) (ops : List LifecycleOp)
    (h : t.uncompleted ops = true) :
    (t.run ops).activeHand = some start ∧ ∀ p, (t.run ops).held p = t.held p := by
  induction ops generalizing t with
  | nil => exact ⟨hactive, fun _ => rfl⟩
  | cons op ops ih =>
    obtain ⟨hnot, hrest⟩ := (Bool.and_eq_true _ _).mp h
    obtain ⟨hsame, hheld, _⟩ := busy_step hactive (by simpa using hnot)
    obtain ⟨hlast, hkept⟩ := ih hsame hrest
    exact ⟨hlast, fun p => (hkept p).trans (hheld p)⟩

theorem Orderly.keepsRoster (ho : t.Orderly) : t.KeepsRoster where
  seated := fun _ _ _ hp hq => playerAt_inj hp hq
  booked := ho.reserved.once
  vacant := by
    intro p hp
    obtain ⟨player, hfound⟩ := OrdMap.contains_iff.mp hp
    exact playerAt_none.mp (ho.reserved.vacant p player hfound)
  dealt := by
    intro start hstart p hp
    obtain ⟨e, he, rfl⟩ := List.mem_map.mp hp
    obtain ⟨player, hheld⟩ := (ho.dealtIn start hstart).2 e he
    refine ⟨player, by rw [playerAt_held, hheld]; rfl, fun ops hops => ?_⟩
    obtain ⟨hlast, hkept⟩ := busy_run hstart ops hops
    exact ⟨hlast, by rw [playerAt_held, hkept, hheld]; rfl⟩
  leaving := by
    intro player hleave op
    have hleaves : t.leaves player = true := decide_eq_true hleave
    split
    · rename_i hcomplete
      obtain ⟨_, _, _, _, _, _, hheld⟩ := completes_step hcomplete
      intro p hp
      rw [playerAt_held, hheld] at hp
      split at hp
      · cases hp
      · rename_i hstays
        rw [Option.map_map] at hp
        have hat : t.playerAt p = some player := by
          rw [playerAt_held]
          exact hp
        rw [hat] at hstays
        exact hstays hleaves
    · rename_i hnot
      cases hactive : t.activeHand with
      | none =>
        rw [ho.idle hactive] at hleave
        cases hleave
      | some start =>
        have hkept := (busy_step hactive (Bool.eq_false_iff.mpr hnot)).2.2 player hleaves
        exact of_decide_eq_true hkept
  chips := ho.ledger
  completes := fun _ => completeHand_ok_iff.trans (takes_iff ho.dealtIn)
  refuses := fun op hbegin _ h => t.refuses op hbegin h

/-- Whatever is called on a table, new or restored, and in whatever order, its roster is kept. -/
theorem run_keeps_roster (hs : t.Starts) (ops : List LifecycleOp) : (t.run ops).KeepsRoster :=
  (hs.orderly.run ops).keepsRoster

theorem run_keeps_roster_new : ((new default).run [.join ⟨1⟩ 0 100, .join ⟨2⟩ 1 100, .beginHand,
    .requestLeave ⟨1⟩]).KeepsRoster :=
  run_keeps_roster (.new default) _

/-- Two players with more than a `u32` of chips between them. -/
def richHand : List LifecycleOp := [.join ⟨1⟩ 0 u32Max, .join ⟨2⟩ 1 u32Max, .beginHand]

/-- Their hand covers its seats with the stacks they had, and is not taken back. -/
theorem rich_hand_never_ends : ∃ start, ((new default).run richHand).activeHand = some start ∧
    start.seatStacks = [(0, u32Max), (1, u32Max)] ∧
      (((new default).run richHand).completeHand [(0, u32Max), (1, u32Max)]).1 = .error (.chipTotalMismatch u32Max u32Max) := by
  have hrun : (((new default).run richHand).activeHand.map (·.seatStacks),
      (((new default).run richHand).completeHand [(0, u32Max), (1, u32Max)]).1) =
        (some [(0, u32Max), (1, u32Max)], .error (.chipTotalMismatch u32Max u32Max)) := by
    decide +kernel
  obtain ⟨hstart, hanswer⟩ := Prod.mk.inj hrun
  obtain ⟨start, hactive, hstacks⟩ := Option.map_eq_some_iff.mp hstart
  exact ⟨start, hactive, hstacks, hanswer⟩

end held

end TableLifecycle

end OpenFelt
