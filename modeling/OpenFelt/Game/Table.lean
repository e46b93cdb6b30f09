/-
  OpenFelt.Game.Table — who sits where (`src/game/table.rs`).

  A `TableSeats` cannot hold a player at two seats or outside the table. `seat_mut` is
  `modify`, which cannot change the player either: `player_id` is private in the source.
-/

import Mathlib.Data.Fintype.Pi
import Mathlib.Logic.Function.Basic
import Mathlib.Order.Lattice
import OpenFelt.Game.Multiway
import OpenFelt.Lib.OrdMap

namespace OpenFelt

structure PlayerId where
  value : Nat
  deriving DecidableEq, Repr

instance : LinearOrder PlayerId := LinearOrder.lift' PlayerId.value fun ⟨_⟩ ⟨_⟩ h => congrArg PlayerId.mk h

inductive ConnectionState where
  | connected
  | disconnected
  deriving DecidableEq, Repr

inductive TableParticipation where
  | active
  | waitingForBlind
  | sittingOut
  | leaving
  deriving DecidableEq, Repr

inductive BlindObligation where
  | clear
  | owesSmallBlind
  | owesBigBlind
  | owesBoth
  deriving DecidableEq, Repr

structure SeatState where
  playerId : PlayerId
  holeCards : List Card
  stack : Nat
  streetBet : Nat
  connection : ConnectionState
  tableParticipation : TableParticipation
  blindObligation : BlindObligation
  handParticipation : HandParticipation
  deriving DecidableEq, Repr

namespace SeatState

/-- `SeatState::active`. -/
def seated (playerId : PlayerId) (stack : Nat) : SeatState where
  playerId := playerId
  holeCards := []
  stack := stack
  streetBet := 0
  connection := .connected
  tableParticipation := .active
  blindObligation := .clear
  handParticipation := .notDealt

def eligibleForNextHand (st : SeatState) : Bool := 0 < st.stack && st.tableParticipation = .active

end SeatState

inductive SeatMapError where
  | seatOutsideTable (seat : SeatId) (tableSize : TableSize)
  | seatOccupied (seat : SeatId)
  | seatVacant (seat : SeatId)
  | duplicatePlayer (player : PlayerId)
  deriving DecidableEq, Repr

structure TableSeats where
  tableSize : TableSize
  seat : SeatId → Option SeatState
  inside : ∀ p st, seat p = some st → tableSize.contains p = true
  distinct : ∀ p q st st', seat p = some st → seat q = some st' → st.playerId = st'.playerId → p = q

structure HandPositions where
  button : SeatId
  smallBlind : SeatId
  bigBlind : SeatId
  firstPreflop : SeatId
  firstPostflop : SeatId
  deriving DecidableEq, Repr

inductive PositionError where
  | ineligibleButton (seat : SeatId)
  | tooFewEligiblePlayers (count : Nat)
  deriving DecidableEq, Repr

namespace TableSeats

variable (s : TableSeats)

def new (tableSize : TableSize) : TableSeats where
  tableSize := tableSize
  seat := fun _ => none
  inside := fun _ _ h => nomatch h
  distinct := fun _ _ _ _ h => nomatch h

/-- The occupied seats, in order. -/
def occupied : List (SeatId × SeatState) := s.tableSize.seats.filterMap fun p => (s.seat p).map fun st => (p, st)

def occupiedCount : Nat := s.occupied.length

def seatForPlayer (player : PlayerId) : Option SeatId :=
  s.occupied.findSome? fun (p, st) => if st.playerId = player then some p else none

theorem mem_occupied {p : SeatId} {st : SeatState} : (p, st) ∈ s.occupied ↔ s.seat p = some st := by
  simp only [occupied, List.mem_filterMap, Option.map_eq_some_iff, Prod.mk.injEq]
  constructor
  · rintro ⟨q, _, st', hst, rfl, rfl⟩; exact hst
  · intro h
    have hin := s.inside p st h
    exact ⟨p, s.tableSize.mem_seats.mpr (by simpa [TableSize.contains] using hin), st, h, rfl, rfl⟩

theorem seatForPlayer_some {player : PlayerId} {p : SeatId} :
    s.seatForPlayer player = some p ↔ ∃ st, s.seat p = some st ∧ st.playerId = player := by
  simp only [seatForPlayer]
  constructor
  · intro h
    obtain ⟨⟨q, st⟩, hmem, hq⟩ := List.exists_of_findSome?_eq_some h
    dsimp only at hq
    split at hq
    · rename_i hpl
      cases hq
      exact ⟨st, s.mem_occupied.mp hmem, hpl⟩
    · cases hq
  · rintro ⟨st, hst, hpl⟩
    have hsome : (s.occupied.findSome? fun (p, st) => if st.playerId = player then some p else none).isSome = true :=
      List.findSome?_isSome_iff.mpr ⟨(p, st), s.mem_occupied.mpr hst, by simp [hpl]⟩
    obtain ⟨q, hq⟩ := Option.isSome_iff_exists.mp hsome
    obtain ⟨⟨r, st'⟩, hmem, hr⟩ := List.exists_of_findSome?_eq_some hq
    dsimp only at hr
    split at hr
    · rename_i hpl'
      cases hr
      rw [hq, s.distinct _ _ _ _ (s.mem_occupied.mp hmem) hst (hpl'.trans hpl.symm)]
    · cases hr

theorem seatForPlayer_none {player : PlayerId} :
    s.seatForPlayer player = none ↔ ∀ p st, s.seat p = some st → st.playerId ≠ player := by
  constructor
  · intro h p st hst he
    have := s.seatForPlayer_some.mpr ⟨st, hst, he⟩
    rw [h] at this; cases this
  · intro h
    cases hp : s.seatForPlayer player with
    | none => rfl
    | some p =>
      obtain ⟨st, hst, he⟩ := s.seatForPlayer_some.mp hp
      exact absurd he (h p st hst)

/-- A player put on a seat. -/
def put (p : SeatId) (st : SeatState) (hin : s.tableSize.contains p = true)
    (hfree : ∀ q st', s.seat q = some st' → st'.playerId ≠ st.playerId) : TableSeats where
  tableSize := s.tableSize
  seat := Function.update s.seat p (some st)
  inside := fun q st' h => by
    by_cases hq : q = p
    · exact hq ▸ hin
    · exact s.inside q st' (by rwa [Function.update_of_ne hq] at h)
  distinct := fun q r st' st'' h h' he => by
    by_cases hq : q = p <;> by_cases hr : r = p
    · rw [hq, hr]
    · rw [hq, Function.update_self] at h
      rw [Function.update_of_ne hr] at h'
      exact absurd (he.symm.trans (Option.some.inj h ▸ rfl)) (hfree r st'' h')
    · rw [hr, Function.update_self] at h'
      rw [Function.update_of_ne hq] at h
      exact absurd (he.trans (Option.some.inj h' ▸ rfl)) (hfree q st' h)
    · rw [Function.update_of_ne hq] at h
      rw [Function.update_of_ne hr] at h'
      exact s.distinct q r st' st'' h h' he

theorem free_of_any {player : PlayerId} (h : ¬ s.occupied.any (fun (_, st) => st.playerId = player) = true) :
    ∀ q st, s.seat q = some st → st.playerId ≠ player := fun q st hst he =>
  h (List.any_eq_true.mpr ⟨(q, st), s.mem_occupied.mpr hst, by simpa using he⟩)

def occupy (p : SeatId) (st : SeatState) : Except SeatMapError TableSeats :=
  if hin : s.tableSize.contains p = true then
    if (s.seat p).isSome then .error (.seatOccupied p)
    else if htaken : s.occupied.any (fun (_, occupant) => occupant.playerId = st.playerId) = true then
      .error (.duplicatePlayer st.playerId)
    else .ok (s.put p st hin (s.free_of_any htaken))
  else .error (.seatOutsideTable p s.tableSize)

/-- A write through `seat_mut`, if the seat is occupied. -/
def modify (p : SeatId) (f : SeatState → SeatState) (hf : ∀ st, (f st).playerId = st.playerId) : TableSeats where
  tableSize := s.tableSize
  seat := Function.update s.seat p ((s.seat p).map f)
  inside := fun q st h => by
    by_cases hq : q = p
    · subst hq
      rw [Function.update_self] at h
      obtain ⟨st', hst, _⟩ := Option.map_eq_some_iff.mp h
      exact s.inside q st' hst
    · exact s.inside q st (by rwa [Function.update_of_ne hq] at h)
  distinct := fun q r st st' h h' he => by
    have hsame : ∀ q st, Function.update s.seat p ((s.seat p).map f) q = some st →
        ∃ st₀, s.seat q = some st₀ ∧ st₀.playerId = st.playerId := fun q st h => by
      by_cases hq : q = p
      · subst hq
        rw [Function.update_self] at h
        obtain ⟨st', hst, rfl⟩ := Option.map_eq_some_iff.mp h
        exact ⟨st', hst, (hf st').symm⟩
      · exact ⟨st, by rwa [Function.update_of_ne hq] at h, rfl⟩
    obtain ⟨st₀, h0, e0⟩ := hsame q st h
    obtain ⟨st₁, h1, e1⟩ := hsame r st' h'
    exact s.distinct q r st₀ st₁ h0 h1 (e0.trans (he.trans e1.symm))

def vacate (p : SeatId) : TableSeats where
  tableSize := s.tableSize
  seat := Function.update s.seat p none
  inside := fun q st h => by
    by_cases hq : q = p
    · rw [hq, Function.update_self] at h; cases h
    · exact s.inside q st (by rwa [Function.update_of_ne hq] at h)
  distinct := fun q r st st' h h' he => by
    by_cases hq : q = p
    · rw [hq, Function.update_self] at h; cases h
    by_cases hr : r = p
    · rw [hr, Function.update_self] at h'; cases h'
    rw [Function.update_of_ne hq] at h
    rw [Function.update_of_ne hr] at h'
    exact s.distinct q r st st' h h' he

/-! ## Positions -/

def eligible (p : SeatId) : Bool := (s.seat p).any (·.eligibleForNextHand)

def nextForHand (after : SeatId) : Option SeatId := s.tableSize.nextEligible after s.eligible

/-- `filter(eligible_for_next_hand).count()`. -/
def eligibleCount : Nat := (s.occupied.filter fun (_, st) => st.eligibleForNextHand).length

/-- The source stops where this finds nothing: see `positions_ok`. -/
def positions (button : SeatId) : Except PositionError HandPositions :=
  if !s.eligible button then .error (.ineligibleButton button)
  else if s.eligibleCount < 2 then .error (.tooFewEligiblePlayers s.eligibleCount)
  else if s.eligibleCount = 2 then
    let bigBlind := (s.nextForHand button).getD button
    .ok ⟨button, button, bigBlind, button, bigBlind⟩
  else
    let smallBlind := (s.nextForHand button).getD button
    let bigBlind := (s.nextForHand smallBlind).getD button
    .ok ⟨button, smallBlind, bigBlind, (s.nextForHand bigBlind).getD button, smallBlind⟩

variable {s} {p q : SeatId} {st : SeatState}

@[simp] theorem seat_new (size : TableSize) : (new size).seat p = none := rfl

@[simp] theorem seat_put {hin hfree} : (s.put p st hin hfree).seat q = if q = p then some st else s.seat q :=
  Function.update_apply _ _ _ _

@[simp] theorem seat_modify {f : SeatState → SeatState} {hf} :
    (s.modify p f hf).seat q = if q = p then (s.seat q).map f else s.seat q := by
  show Function.update s.seat p _ q = _
  rw [Function.update_apply]
  by_cases h : q = p
  · rw [if_pos h, if_pos h, h]
  · rw [if_neg h, if_neg h]

@[simp] theorem seat_vacate : (s.vacate p).seat q = if q = p then none else s.seat q := Function.update_apply _ _ _ _

/-! ## Counting seats -/

theorem occupiedCount_eq (s : TableSeats) :
    s.occupiedCount = (s.tableSize.seats.filter fun p => (s.seat p).isSome).length := by
  unfold occupiedCount occupied
  induction s.tableSize.seats with
  | nil => rfl
  | cons p l ih =>
    rw [List.filterMap_cons, List.filter_cons]
    cases h : s.seat p with
    | none => simpa using ih
    | some st => simpa using ih

theorem eligibleCount_eq (s : TableSeats) : s.eligibleCount = (s.tableSize.seats.filter s.eligible).length := by
  unfold eligibleCount occupied
  induction s.tableSize.seats with
  | nil => rfl
  | cons p l ih =>
    rw [List.filterMap_cons, List.filter_cons]
    cases h : s.seat p with
    | none => simpa [eligible, h] using ih
    | some st =>
      simp only [Option.map_some, List.filter_cons, eligible, h, Option.any_some]
      split
      · simpa using ih
      · exact ih

/-- Counting occupied seats is counting seats. -/
theorem length_occupied_filter (s : TableSeats) (f : SeatId → Bool) (hf : ∀ q, f q = true → (s.seat q).isSome = true) :
    (s.occupied.filter fun x => f x.1).length = (s.tableSize.seats.filter f).length := by
  unfold occupied
  induction s.tableSize.seats with
  | nil => rfl
  | cons q l ih =>
    rw [List.filterMap_cons, List.filter_cons]
    cases h : s.seat q with
    | none =>
      have hout : ¬ f q = true := fun hq => by have := hf q hq; rw [h] at this; cases this
      rw [if_neg hout]
      exact ih
    | some st =>
      simp only [Option.map_some, List.filter_cons]
      split
      · rw [List.length_cons, List.length_cons, ih]
      · exact ih

theorem occupiedCount_congr {s' : TableSeats} (hsize : s'.tableSize = s.tableSize)
    (h : ∀ p, (s'.seat p).isSome = (s.seat p).isSome) : s'.occupiedCount = s.occupiedCount := by
  simp only [occupiedCount_eq, hsize, h]

theorem eligibleCount_congr {s' : TableSeats} (hsize : s'.tableSize = s.tableSize)
    (h : ∀ p, s'.eligible p = s.eligible p) : s'.eligibleCount = s.eligibleCount := by
  simp only [eligibleCount_eq, hsize, funext h]

theorem occupiedCount_zero : s.occupiedCount = 0 ↔ ∀ p, s.seat p = none := by
  rw [occupiedCount_eq, List.length_eq_zero_iff, List.filter_eq_nil_iff]
  constructor
  · intro h p
    cases hp : s.seat p with
    | none => rfl
    | some st =>
      have hin := s.inside p st hp
      exact absurd (by rw [hp]; rfl) (h p (s.tableSize.mem_seats.mpr (by simpa [TableSize.contains] using hin)))
  · intro h p _
    simp [h p]

theorem eligible_iff : s.eligible p = true ↔ ∃ st, s.seat p = some st ∧ st.eligibleForNextHand = true := by
  unfold eligible
  cases s.seat p <;> simp

theorem mem_seats_of_eligible (h : s.eligible p = true) : p ∈ s.tableSize.seats := by
  obtain ⟨st, hst, _⟩ := eligible_iff.mp h
  exact s.tableSize.mem_seats.mpr (by simpa [TableSize.contains] using s.inside p st hst)

/-! ## The seats of the blinds -/

theorem inside_of_eligible (h : s.eligible p = true) : p.val < s.tableSize.get :=
  s.tableSize.mem_seats.mp (mem_seats_of_eligible h)

theorem exists_eligible_ne (hcount : 2 ≤ s.eligibleCount) (p : SeatId) : ∃ q, s.eligible q = true ∧ q ≠ p := by
  by_contra hnone
  have hall : ∀ q ∈ s.tableSize.seats.filter s.eligible, q = p := fun q hq => by
    by_contra hne
    exact hnone ⟨q, (List.mem_filter.mp hq).2, hne⟩
  have hnodup : (s.tableSize.seats.filter s.eligible).Nodup := s.tableSize.nodup_seats.filter _
  rw [eligibleCount_eq] at hcount
  match hl : s.tableSize.seats.filter s.eligible with
  | [] => rw [hl] at hcount; exact absurd hcount (by decide)
  | [_] => rw [hl] at hcount; exact absurd hcount (by simp)
  | a :: b :: rest =>
    rw [hl] at hall hnodup
    have hab : a = b := (hall a (by simp)).trans (hall b (by simp)).symm
    simp [hab] at hnodup

theorem nextForHand_eligible (h : s.nextForHand p = some q) : s.eligible q = true ∧ q ≠ p :=
  ⟨(nextEligible_some h).2.2.1, (nextEligible_some h).2.2.2.1⟩

theorem nextForHand_isSome (hcount : 2 ≤ s.eligibleCount) (hp : p.val < s.tableSize.get) :
    ∃ q, s.nextForHand p = some q := by
  obtain ⟨r, hr, hne⟩ := exists_eligible_ne hcount p
  exact nextEligible_isSome hp (inside_of_eligible hr) hr hne

/-- Two eligible players or more have positions: none of the source's `expect`s can fail. -/
theorem positions_ok (hb : s.eligible p = true) (hcount : 2 ≤ s.eligibleCount) :
    (s.eligibleCount = 2 ∧ ∃ bigBlind, s.nextForHand p = some bigBlind ∧
        s.positions p = .ok ⟨p, p, bigBlind, p, bigBlind⟩) ∨
      (3 ≤ s.eligibleCount ∧ ∃ smallBlind bigBlind first, s.nextForHand p = some smallBlind ∧
        s.nextForHand smallBlind = some bigBlind ∧ s.nextForHand bigBlind = some first ∧
        s.positions p = .ok ⟨p, smallBlind, bigBlind, first, smallBlind⟩) := by
  obtain ⟨next, hnext⟩ := nextForHand_isSome hcount (inside_of_eligible hb)
  have hfew : ¬ s.eligibleCount < 2 := by omega
  simp only [positions, hb, Bool.not_true, Bool.false_eq_true, if_false, if_neg hfew, hnext, Option.getD_some]
  by_cases htwo : s.eligibleCount = 2
  · exact Or.inl ⟨htwo, next, rfl, if_pos htwo⟩
  · obtain ⟨bigBlind, hbig⟩ := nextForHand_isSome hcount (inside_of_eligible (nextForHand_eligible hnext).1)
    obtain ⟨first, hfirst⟩ := nextForHand_isSome hcount (inside_of_eligible (nextForHand_eligible hbig).1)
    refine Or.inr ⟨by omega, next, bigBlind, first, rfl, hbig, hfirst, ?_⟩
    rw [if_neg htwo, hbig, Option.getD_some, hfirst, Option.getD_some]

theorem positions_congr {s' : TableSeats} (hsize : s'.tableSize = s.tableSize)
    (h : ∀ p, s'.eligible p = s.eligible p) (p : SeatId) : s'.positions p = s.positions p := by
  simp only [positions, nextForHand, hsize, eligibleCount_congr hsize h, funext h]

/-! ## Writes -/

theorem occupy_ok {s' : TableSeats} (h : s.occupy p st = .ok s') :
    s.tableSize.contains p = true ∧ s.seat p = none ∧ (∀ q st', s.seat q = some st' → st'.playerId ≠ st.playerId) ∧
      s'.tableSize = s.tableSize ∧ ∀ q, s'.seat q = if q = p then some st else s.seat q := by
  unfold occupy at h
  split at h
  · rename_i hin
    split at h
    · cases h
    rename_i hfree
    split at h
    · cases h
    rename_i htaken
    cases h
    exact ⟨hin, by simpa using hfree, s.free_of_any htaken, rfl, fun q => seat_put⟩
  · cases h

theorem occupy_free (hin : s.tableSize.contains p = true) (hfree : s.seat p = none)
    (hnew : ∀ q st', s.seat q = some st' → st'.playerId ≠ st.playerId) : ∃ s', s.occupy p st = .ok s' := by
  have htaken : ¬ s.occupied.any (fun (_, occupant) => occupant.playerId = st.playerId) = true := by
    intro h
    obtain ⟨⟨q, st'⟩, hmem, he⟩ := List.any_eq_true.mp h
    exact hnew q st' (s.mem_occupied.mp hmem) (by simpa using he)
  rw [occupy, dif_pos hin, if_neg (by simp [hfree]), dif_neg htaken]
  exact ⟨_, rfl⟩

theorem nodup_occupied (s : TableSeats) : (s.occupied.map (·.1)).Nodup := by
  have hkeys : s.occupied.map (·.1) = s.tableSize.seats.filter fun p => (s.seat p).isSome := by
    unfold occupied
    induction s.tableSize.seats with
    | nil => rfl
    | cons p l ih =>
      rw [List.filterMap_cons, List.filter_cons]
      cases h : s.seat p with
      | none => simpa using ih
      | some st => simpa using ih
  rw [hkeys]
  exact s.tableSize.nodup_seats.filter _

/-- Looking a seat up among the players kept. -/
theorem lookup_occupied {α : Type} (s : TableSeats) (keep : SeatState → Bool) (g : SeatState → α) (q : SeatId) :
    ((s.occupied.filter fun x => keep x.2).map fun x => (x.1, g x.2)).lookup q = ((s.seat q).filter keep).map g := by
  have hlist : ∀ l : List SeatId, (((l.filterMap fun p => (s.seat p).map fun st => (p, st)).filter fun x => keep x.2).map
      fun x => (x.1, g x.2)).lookup q = if q ∈ l then ((s.seat q).filter keep).map g else none := by
    intro l
    induction l with
    | nil => rfl
    | cons p l ih =>
      rw [List.filterMap_cons]
      by_cases hq : q = p
      · subst hq
        rw [if_pos List.mem_cons_self]
        cases hs : s.seat q with
        | none => simpa [hs] using ih
        | some st =>
          by_cases hk : keep st = true
          · simp [hk, OrdMap.lookup_cons_if]
          · have hout : (some st).filter keep = none := by rw [Option.filter_some, if_neg hk]
            rw [hs, hout] at ih
            simpa [hk, hout] using ih
      · have hmem : q ∈ p :: l ↔ q ∈ l := by simp [hq]
        simp only [hmem]
        rw [← ih]
        cases hs : s.seat p with
        | none => rfl
        | some st =>
          by_cases hk : keep st = true
          · simp [hk, OrdMap.lookup_cons_if, hq]
          · simp [hk]
  rw [occupied, hlist]
  split
  · rfl
  · rename_i hout
    cases hs : s.seat q with
    | none => rfl
    | some st => exact absurd (s.tableSize.mem_seats.mpr (by simpa [TableSize.contains] using s.inside q st hs)) hout

theorem nodup_kept {α : Type} (s : TableSeats) (keep : SeatState → Bool) (g : SeatState → α) :
    (((s.occupied.filter fun x => keep x.2).map fun x => (x.1, g x.2)).map (·.1)).Nodup := by
  rw [List.map_map]
  exact s.nodup_occupied.sublist (List.filter_sublist.map _)

/-- Writes at several seats, each at most once. -/
theorem seat_foldl_modify {α : Type} (f : α → SeatState → SeatState) (hf : ∀ a st, (f a st).playerId = st.playerId)
    (l : List (SeatId × α)) (hn : (l.map (·.1)).Nodup) (s : TableSeats) :
    (l.foldl (fun s (x : SeatId × α) => s.modify x.1 (f x.2) (hf x.2)) s).tableSize = s.tableSize ∧
      ∀ q, (l.foldl (fun s (x : SeatId × α) => s.modify x.1 (f x.2) (hf x.2)) s).seat q =
        match l.lookup q with
        | some a => (s.seat q).map (f a)
        | none => s.seat q := by
  induction l generalizing s with
  | nil => exact ⟨rfl, fun _ => rfl⟩
  | cons x l ih =>
    obtain ⟨hnew, hn⟩ := List.nodup_cons.mp hn
    obtain ⟨h1, h2⟩ := ih hn (s.modify x.1 (f x.2) (hf x.2))
    refine ⟨h1, fun q => ?_⟩
    rw [List.foldl_cons, h2 q, List.lookup_cons, seat_modify]
    by_cases hq : q = x.1
    · have hnone : l.lookup q = none := by
        rw [List.lookup_eq_none_iff]
        intro y hy
        exact bne_iff_ne.mpr fun e => hnew (List.mem_map.mpr ⟨y, hy, (hq.symm.trans e).symm⟩)
      rw [hnone, if_pos hq, beq_iff_eq.mpr hq]
    · rw [if_neg hq, beq_eq_false_iff_ne.mpr hq]

end TableSeats

end OpenFelt
