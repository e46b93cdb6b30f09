/-
  OpenFelt.Game.Seat — seats, table sizes and clockwise order (`src/game/seat.rs`,
  the traversals at the end of `src/game/multiway.rs`).

  `SeatId` and `TableSize` are the source's validated newtypes: a seat is below nine
  and a table has two to nine seats, so neither can be built out of range.
-/

import Mathlib.Data.List.FinRange
import OpenFelt.Lib.Clockwise

namespace OpenFelt

abbrev maxTableSeats : Nat := 9

abbrev SeatId := Fin maxTableSeats

/-! Seat 0 of a table, and the first of two players. -/

instance neZero_maxTableSeats : NeZero maxTableSeats := ⟨by decide⟩

instance neZero_two : NeZero 2 := ⟨by decide⟩

structure TableSize where
  get : Nat
  two_le : 2 ≤ get
  le_nine : get ≤ maxTableSeats
  deriving DecidableEq, Repr

namespace TableSize

abbrev two : TableSize := ⟨2, by decide, by decide⟩

abbrev three : TableSize := ⟨3, by decide, by decide⟩

abbrev nine : TableSize := ⟨9, by decide, by decide⟩

end TableSize

instance : Inhabited TableSize := ⟨.two⟩

/-- `TableSize::new`. -/
def TableSize.new (seats : Nat) : Option TableSize :=
  if h : 2 ≤ seats ∧ seats ≤ maxTableSeats then some ⟨seats, h.1, h.2⟩ else none

namespace TableSize

variable (size : TableSize)

def contains (seat : SeatId) : Bool := seat.val < size.get

def seats : List SeatId := (List.finRange size.get).map (Fin.castLE size.le_nine)

theorem mem_seats {seat : SeatId} : seat ∈ size.seats ↔ seat.val < size.get := by
  simp only [seats, List.mem_map, List.mem_finRange, true_and]
  constructor
  · rintro ⟨i, rfl⟩; exact i.isLt
  · intro h; exact ⟨⟨seat.val, h⟩, rfl⟩

theorem nodup_seats : size.seats.Nodup :=
  (List.nodup_finRange _).map (Fin.castLE_injective size.le_nine)

theorem pos : 0 < size.get := by have := size.two_le; omega

end TableSize

/-- `seat_wrapped`: the seat `offset` places clockwise of `start`. -/
def seatWrapped (size : TableSize) (start : SeatId) (offset : Nat) : SeatId :=
  ⟨(start.val + offset) % size.get, Nat.lt_of_lt_of_le (Nat.mod_lt _ size.pos) size.le_nine⟩

/-- The seats visited going clockwise from `start`, offsets `first` to `first + n - 1`. -/
def clockwiseFrom (size : TableSize) (start : SeatId) (first n : Nat) : List SeatId :=
  (List.range' first n).map (seatWrapped size start)

/-- `clockwise_award_key`: how far clockwise of the button, the button itself last. -/
def clockwiseAwardKey (size : TableSize) (button seat : SeatId) : Nat :=
  let distance := (seat.val + size.get - button.val) % size.get
  if distance = 0 then size.get else distance

theorem key_eq_gap (size : TableSize) (p q : SeatId) : clockwiseAwardKey size p q = Clockwise.gap size.get p.val q.val := rfl

section search
variable {size : TableSize} {start : SeatId} {f g : SeatId → Bool}

/-- `f` on seat numbers. -/
def onVal (f : SeatId → Bool) (n : Nat) : Bool := if h : n < maxTableSeats then f ⟨n, h⟩ else false

theorem onVal_val (p : SeatId) : onVal f p.val = f p := by simp [onVal]

theorem find_clockwise_val (size : TableSize) (start : SeatId) (f : SeatId → Bool) :
    ((clockwiseFrom size start 1 size.get).find? f).map Fin.val =
    ((List.range' 1 size.get).map (Clockwise.rot size.get start.val)).find? (onVal f) := by
  simp only [clockwiseFrom, List.find?_map, Option.map_map]
  congr 1
  exact congrArg (List.find? · _) (funext fun k => (onVal_val (f := f) (seatWrapped size start k)).symm)

/-- The search finds the nearest clockwise; the start itself counts as a full turn away. -/
theorem find_clockwise (hs : start.val < size.get) {p : SeatId} (h : (clockwiseFrom size start 1 size.get).find? f = some p) :
    p.val < size.get ∧ f p = true ∧
      ∀ q : SeatId, q.val < size.get → f q = true → clockwiseAwardKey size start p ≤ clockwiseAwardKey size start q := by
  have hv := find_clockwise_val size start f
  rw [h, Option.map_some] at hv
  obtain ⟨h1, h2, h3⟩ := Clockwise.find_least_gap hs (onVal f) hv.symm
  exact ⟨h1, by rwa [onVal_val] at h2, fun q hq hfq => h3 q.val hq (by rwa [onVal_val])⟩

theorem find_clockwise_none (hs : start.val < size.get) (h : (clockwiseFrom size start 1 size.get).find? f = none)
    (p : SeatId) (hp : p.val < size.get) : f p = false := by
  have hv := find_clockwise_val size start f
  rw [h, Option.map_none] at hv
  have := Clockwise.find_none hs (onVal f) hv.symm p.val hp
  rwa [onVal_val] at this

theorem mem_clockwise (hs : start.val < size.get) (p : SeatId) (hp : p.val < size.get) :
    p ∈ clockwiseFrom size start 0 size.get := by
  obtain ⟨k, hk, hr⟩ := List.mem_map.mp (Clockwise.mem_turn hs hp)
  exact List.mem_map.mpr ⟨k, hk, Fin.ext hr⟩

/-- The key counts the places from the button to the seat, one to a full turn. -/
theorem seatWrapped_key {button p : SeatId} (hb : button.val < size.get) (hp : p.val < size.get) :
    seatWrapped size button (clockwiseAwardKey size button p) = p ∧ 0 < clockwiseAwardKey size button p ∧
      clockwiseAwardKey size button p ≤ size.get := by
  have hpos := size.pos
  have hlt := Nat.mod_lt (p.val + size.get - button.val) hpos
  have hkey : (button.val + (p.val + size.get - button.val) % size.get) % size.get = p.val := by
    rw [Nat.add_mod_mod, Nat.add_sub_of_le (by omega), Nat.add_mod_right, Nat.mod_eq_of_lt hp]
  refine ⟨Fin.ext ?_, ?_⟩
  · simp only [clockwiseAwardKey, seatWrapped]
    split
    · rename_i h0
      rw [h0, Nat.add_zero] at hkey
      rw [Nat.add_mod_right]; exact hkey
    · exact hkey
  · simp only [clockwiseAwardKey]
    split <;> omega

theorem clockwiseAwardKey_inj {button p q : SeatId} (hb : button.val < size.get) (hp : p.val < size.get) (hq : q.val < size.get)
    (h : clockwiseAwardKey size button p = clockwiseAwardKey size button q) : p = q := by
  rw [← (seatWrapped_key hb hp).1, ← (seatWrapped_key hb hq).1, h]

/-! ### Turns -/

theorem clockwiseFrom_append (size : TableSize) (start : SeatId) (first m n : Nat) :
    clockwiseFrom size start first (m + n) = clockwiseFrom size start first m ++ clockwiseFrom size start (first + m) n := by
  rw [clockwiseFrom, ← List.range'_append_1, List.map_append]
  rfl

theorem clockwiseFrom_seatWrapped (size : TableSize) (start : SeatId) (k first n : Nat) :
    clockwiseFrom size (seatWrapped size start k) first n = clockwiseFrom size start (k + first) n := by
  rw [clockwiseFrom, clockwiseFrom, ← List.map_add_range', List.map_map]
  refine List.map_congr_left fun i _ => Fin.ext ?_
  simp only [seatWrapped, Function.comp_apply, Nat.mod_add_mod]
  congr 1
  omega

/-- A full turn further on are the same seats. -/
theorem clockwiseFrom_turn (size : TableSize) (start : SeatId) (first n : Nat) :
    clockwiseFrom size start (size.get + first) n = clockwiseFrom size start first n := by
  rw [clockwiseFrom, ← List.map_add_range', List.map_map, clockwiseFrom]
  refine List.map_congr_left fun i _ => Fin.ext ?_
  simp only [seatWrapped, Function.comp_apply]
  rw [show start.val + (size.get + i) = start.val + i + size.get by omega, Nat.add_mod_right]

/-- A search that starts from the nearest of some seats, for one of them, is the search from the seat before. -/
theorem find_clockwise_from {first : SeatId} (hfirst : (clockwiseFrom size start 1 size.get).find? f = some first)
    (hg : ∀ p, g p = true → f p = true) :
    (clockwiseFrom size first 0 size.get).find? g = (clockwiseFrom size start 1 size.get).find? g := by
  rw [clockwiseFrom, List.find?_map] at hfirst
  obtain ⟨k, hk, rfl⟩ := Option.map_eq_some_iff.mp hfirst
  obtain ⟨_, hmem, hbefore⟩ := List.find?_range'_eq_some.mp hk
  rw [List.mem_range'_1] at hmem
  have hskip : (clockwiseFrom size start 1 (k - 1)).find? g = none := by
    rw [List.find?_eq_none]
    intro p hp hgp
    obtain ⟨i, hi, rfl⟩ := List.mem_map.mp hp
    rw [List.mem_range'_1] at hi
    have hout := hbefore i (by omega) (by omega)
    simp [hg _ hgp] at hout
  have hleft : clockwiseFrom size start 1 size.get = clockwiseFrom size start 1 (k - 1) ++
      clockwiseFrom size start k (size.get + 1 - k) := by
    have := clockwiseFrom_append size start 1 (k - 1) (size.get + 1 - k)
    rwa [show k - 1 + (size.get + 1 - k) = size.get by omega, show 1 + (k - 1) = k by omega] at this
  have hright : clockwiseFrom size (seatWrapped size start k) 0 size.get =
      clockwiseFrom size start k (size.get + 1 - k) ++ clockwiseFrom size start 1 (k - 1) := by
    have := clockwiseFrom_append size start k (size.get + 1 - k) (k - 1)
    rw [show size.get + 1 - k + (k - 1) = size.get by omega, show k + (size.get + 1 - k) = size.get + 1 by omega,
      clockwiseFrom_turn] at this
    rw [clockwiseFrom_seatWrapped, Nat.add_zero, this]
  rw [hleft, hright, List.find?_append, List.find?_append, hskip, Option.or_none, Option.none_or]

/-- A turn ends at the seat it started from. -/
theorem clockwise_ends (hs : start.val < size.get) :
    clockwiseFrom size start 1 size.get = clockwiseFrom size start 1 (size.get - 1) ++ [start] := by
  have hsplit := clockwiseFrom_append size start 1 (size.get - 1) 1
  have hpos := size.pos
  rw [Nat.sub_add_cancel hpos, show 1 + (size.get - 1) = size.get by omega] at hsplit
  have hlast : seatWrapped size start size.get = start := by
    apply Fin.ext
    simp only [seatWrapped, Nat.add_mod_right]
    exact Nat.mod_eq_of_lt hs
  rw [hsplit]
  congr 1
  simp [clockwiseFrom, hlast]

end search

/-- `next_eligible`: the first eligible seat clockwise after `start`, which is excluded. -/
def TableSize.nextEligible (size : TableSize) (start : SeatId) (eligible : SeatId → Bool) : Option SeatId :=
  if size.contains start then (clockwiseFrom size start 1 (size.get - 1)).find? eligible else none

section next
variable {size : TableSize} {start p : SeatId} {f : SeatId → Bool}

theorem seatWrapped_ne (hs : start.val < size.get) {k : Nat} (hk : 0 < k) (hlt : k < size.get) :
    seatWrapped size start k ≠ start := by
  intro he
  have hrot : Clockwise.rot size.get start.val k = start.val := congrArg Fin.val he
  have hgap := Clockwise.gap_rot hs hk (Nat.le_of_lt hlt)
  rw [hrot, Clockwise.gap, Nat.add_sub_cancel_left, Nat.mod_self, if_pos rfl] at hgap
  omega

/-- The search that leaves the start out is a full turn that never accepts it. -/
theorem nextEligible_eq (hs : start.val < size.get) :
    size.nextEligible start f = (clockwiseFrom size start 1 size.get).find? fun q => f q && decide (q ≠ start) := by
  have hsame : ∀ q ∈ clockwiseFrom size start 1 (size.get - 1), f q = (f q && decide (q ≠ start)) := by
    intro q hq
    obtain ⟨k, hk, rfl⟩ := List.mem_map.mp hq
    rw [List.mem_range'_1] at hk
    rw [decide_eq_true (seatWrapped_ne hs (by omega) (by omega)), Bool.and_true]
  rw [TableSize.nextEligible, if_pos (by simpa [TableSize.contains] using hs), clockwise_ends hs, List.find?_append]
  have hlast : [start].find? (fun q => f q && decide (q ≠ start)) = none := by simp
  rw [hlast, Option.or_none]
  generalize clockwiseFrom size start 1 (size.get - 1) = l at hsame
  induction l with
  | nil => rfl
  | cons a l ih =>
    rw [List.find?_cons, List.find?_cons, ← hsame a List.mem_cons_self,
      ih fun q hq => hsame q (List.mem_cons_of_mem _ hq)]

/-- What it finds is the nearest other eligible seat. -/
theorem nextEligible_some (h : size.nextEligible start f = some p) :
    start.val < size.get ∧ p.val < size.get ∧ f p = true ∧ p ≠ start ∧ ∀ q : SeatId, q.val < size.get → f q = true →
      q ≠ start → clockwiseAwardKey size start p ≤ clockwiseAwardKey size start q := by
  have hs : start.val < size.get := by
    unfold TableSize.nextEligible at h
    split at h
    · rename_i hin; simpa [TableSize.contains] using hin
    · cases h
  rw [nextEligible_eq hs] at h
  obtain ⟨hp, hfp, hleast⟩ := find_clockwise hs h
  simp only [Bool.and_eq_true, decide_eq_true_eq] at hfp hleast
  exact ⟨hs, hp, hfp.1, hfp.2, fun q hq hf hne => hleast q hq ⟨hf, hne⟩⟩

theorem nextEligible_isSome (hs : start.val < size.get) (hp : p.val < size.get) (hf : f p = true) (hne : p ≠ start) :
    ∃ q, size.nextEligible start f = some q := by
  cases h : size.nextEligible start f with
  | some q => exact ⟨q, rfl⟩
  | none =>
    rw [nextEligible_eq hs] at h
    have := find_clockwise_none hs h p hp
    simp [hf, hne] at this

/-- The nearest seat of a full turn is the nearest of the others, when there is one. -/
theorem find_turn (hs : start.val < size.get) {q : SeatId} (h : size.nextEligible start f = some q) :
    (clockwiseFrom size start 1 size.get).find? f = some q := by
  rw [TableSize.nextEligible, if_pos (by simpa [TableSize.contains] using hs)] at h
  rw [clockwise_ends hs, List.find?_append, h, Option.some_or]

end next

end OpenFelt
