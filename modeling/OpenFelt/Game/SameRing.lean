/-
  OpenFelt.Game.SameRing — the same players round two tables.

  The engine knows two orders of seats: by number (`occupied_seats`) and clockwise from some
  seat (`seat_wrapped`, `clockwise_award_key`). Seats moved to other numbers, or to a table of
  another size, keep the second order when they keep it as seen from the button. Proved: it is
  then kept from every taken seat, searches and sorts clockwise give the same seats, and the
  order by number gives the same seats up to a permutation.
-/

import OpenFelt.Game.Multiway
import Mathlib.Logic.Equiv.Defs

namespace OpenFelt

section around
variable {size : TableSize} {start p : SeatId}

/-- The key counts the seats passed. -/
theorem key_seatWrapped (hs : start.val < size.get) {k : Nat} (hpos : 0 < k) (hle : k ≤ size.get) :
    clockwiseAwardKey size start (seatWrapped size start k) = k := Clockwise.gap_rot hs hpos hle

/-- The keys of a full turn count up. -/
theorem sorted_clockwiseFrom (hs : start.val < size.get) : (clockwiseFrom size start 1 size.get).Pairwise fun a b =>
    clockwiseAwardKey size start a ≤ clockwiseAwardKey size start b := by
  refine List.pairwise_map.mpr ((List.pairwise_lt_range' (s := 1) (n := size.get)).imp_of_mem fun {i j} hi hj hij => ?_)
  rw [List.mem_range'_1] at hi hj
  rw [key_seatWrapped hs (by omega) (by omega), key_seatWrapped hs (by omega) (by omega)]
  omega

theorem nodup_clockwiseFrom (hs : start.val < size.get) : (clockwiseFrom size start 1 size.get).Nodup := by
  refine List.pairwise_map.mpr ((List.pairwise_lt_range' (s := 1) (n := size.get)).imp_of_mem fun {i j} hi hj hij he => ?_)
  rw [List.mem_range'_1] at hi hj
  have hij' := key_seatWrapped hs (k := i) (by omega) (by omega)
  rw [he, key_seatWrapped hs (by omega) (by omega)] at hij'
  omega

theorem mem_clockwiseFrom (hs : start.val < size.get) (hp : p.val < size.get) : p ∈ clockwiseFrom size start 1 size.get := by
  obtain ⟨hkey, hpos, hle⟩ := seatWrapped_key hs hp
  exact List.mem_map.mpr ⟨_, List.mem_range'_1.mpr ⟨hpos, by omega⟩, hkey⟩

end around

/-- The same places taken in the same clockwise order from the button, under other numbers. -/
structure SameRing (π : Equiv.Perm SeatId) (size size' : TableSize) (button : SeatId) (taken taken' : SeatId → Bool) : Prop where
  same : ∀ p, taken' (π p) = taken p
  inside : ∀ p, taken p = true → p.val < size.get
  inside' : ∀ p, taken p = true → (π p).val < size'.get
  held : taken button = true
  order : ∀ p q, taken p = true → taken q = true →
    (clockwiseAwardKey size button p ≤ clockwiseAwardKey size button q ↔
      clockwiseAwardKey size' (π button) (π p) ≤ clockwiseAwardKey size' (π button) (π q))

namespace SameRing

variable {π : Equiv.Perm SeatId} {size size' : TableSize} {button start : SeatId} {taken taken' : SeatId → Bool}

/-- The order is the same from wherever it is looked at. -/
theorem order_from (hr : SameRing π size size' button taken taken') (hs : taken start = true) (p q : SeatId) (hp : taken p = true)
    (hq : taken q = true) : clockwiseAwardKey size start p ≤ clockwiseAwardKey size start q ↔
      clockwiseAwardKey size' (π start) (π p) ≤ clockwiseAwardKey size' (π start) (π q) := by
  have hsp := hr.order start p hs hp
  have hps := hr.order p start hp hs
  have hsq := hr.order start q hs hq
  have hqs := hr.order q start hq hs
  have hpq := hr.order p q hp hq
  simp only [key_eq_gap] at *
  rw [Clockwise.gap_le_iff (hr.inside _ hr.held) (hr.inside _ hs) (hr.inside _ hp) (hr.inside _ hq),
    Clockwise.gap_le_iff (hr.inside' _ hr.held) (hr.inside' _ hs) (hr.inside' _ hp) (hr.inside' _ hq)]
  simp only [← Nat.not_le, hps, hqs, hpq]

theorem key_inj (hr : SameRing π size size' button taken taken') (hs : taken start = true) {p q : SeatId} (hp : taken p = true)
    (hq : taken q = true) (hpq : clockwiseAwardKey size' (π start) (π p) ≤ clockwiseAwardKey size' (π start) (π q))
    (hqp : clockwiseAwardKey size' (π start) (π q) ≤ clockwiseAwardKey size' (π start) (π p)) : p = q :=
  π.injective (clockwiseAwardKey_inj (hr.inside' _ hs) (hr.inside' _ hp) (hr.inside' _ hq) (Nat.le_antisymm hpq hqp))

variable {f f' : SeatId → Bool}

/-- A search clockwise finds the same seat. -/
theorem find (hr : SameRing π size size' button taken taken') (hs : taken start = true) (hf : ∀ p, f p = true → taken p = true)
    (hsame : ∀ p, f' (π p) = f p) :
    (clockwiseFrom size' (π start) 1 size'.get).find? f' = ((clockwiseFrom size start 1 size.get).find? f).map π := by
  cases hfind : (clockwiseFrom size start 1 size.get).find? f with
  | none =>
    cases hfind' : (clockwiseFrom size' (π start) 1 size'.get).find? f' with
    | none => rfl
    | some q =>
      obtain ⟨_, hfq, _⟩ := find_clockwise (hr.inside' _ hs) hfind'
      have hq := hsame (π.symm q)
      rw [Equiv.apply_symm_apply, hfq] at hq
      have hnone := find_clockwise_none (hr.inside _ hs) hfind (π.symm q) (hr.inside _ (hf _ hq.symm))
      rw [hnone] at hq
      cases hq
  | some p =>
    obtain ⟨hin, hfp, hleast⟩ := find_clockwise (hr.inside _ hs) hfind
    have hp := hf p hfp
    cases hfind' : (clockwiseFrom size' (π start) 1 size'.get).find? f' with
    | none =>
      have hnone := find_clockwise_none (hr.inside' _ hs) hfind' (π p) (hr.inside' _ hp)
      rw [hsame, hfp] at hnone
      cases hnone
    | some q =>
      obtain ⟨_, hfq, hleast'⟩ := find_clockwise (hr.inside' _ hs) hfind'
      have hq := hsame (π.symm q)
      rw [Equiv.apply_symm_apply, hfq] at hq
      have hqt := hf _ hq.symm
      have hle := hleast (π.symm q) (hr.inside _ hqt) hq.symm
      have hle' := hleast' (π p) (hr.inside' _ hp) (by rw [hsame, hfp])
      rw [hr.order_from hs p _ hp hqt, Equiv.apply_symm_apply] at hle
      rw [← π.apply_symm_apply q] at hle hle'
      rw [hr.key_inj hs hp hqt hle hle', Option.map_some, Equiv.apply_symm_apply]

/-- Nor does it matter to a search that begins with the start itself. -/
theorem find_here (hr : SameRing π size size' button taken taken') (hs : taken start = true)
    (hf : ∀ p, f p = true → taken p = true)
    (hsame : ∀ p, f' (π p) = f p) :
    (clockwiseFrom size' (π start) 0 size'.get).find? f' = ((clockwiseFrom size start 0 size.get).find? f).map π := by
  have hhere : ∀ (size : TableSize) (start : SeatId) (f : SeatId → Bool), start.val < size.get →
      (clockwiseFrom size start 0 size.get).find? f =
        if f start = true then some start else (clockwiseFrom size start 1 size.get).find? f := by
    intro size start f hs
    have hsplit := clockwiseFrom_append size start 0 1 (size.get - 1)
    rw [Nat.add_sub_cancel' size.pos] at hsplit
    have hfirst : clockwiseFrom size start 0 1 = [start] := by
      simp [clockwiseFrom, seatWrapped, Nat.mod_eq_of_lt hs]
    rw [hsplit, hfirst, clockwise_ends hs, List.find?_append, List.find?_append, Nat.zero_add]
    by_cases hstart : f start = true
    · rw [if_pos hstart, List.find?_cons_of_pos hstart, Option.some_or]
    · rw [if_neg hstart, List.find?_cons_of_neg hstart, List.find?_nil, Option.none_or, Option.or_none]
  rw [hhere size start f (hr.inside _ hs), hhere size' (π start) f' (hr.inside' _ hs), hsame, hr.find hs hf hsame]
  split <;> rfl

theorem mem_taken (hr : SameRing π size size' button taken taken') (p : SeatId) :
    p ∈ size.seats.filter taken ↔ taken p = true := by
  rw [List.mem_filter, TableSize.mem_seats, and_iff_right_iff_imp]
  exact hr.inside p

/-- The taken seats by number are the same seats, though in another order. -/
theorem seats (hr : SameRing π size size' button taken taken') :
    (size'.seats.filter taken').Perm ((size.seats.filter taken).map π) := by
  refine (List.perm_ext_iff_of_nodup (size'.nodup_seats.filter _) ((size.nodup_seats.filter _).map π.injective)).mpr fun q => ?_
  have hq := hr.same (π.symm q)
  rw [Equiv.apply_symm_apply] at hq
  rw [List.mem_filter, TableSize.mem_seats, hq, List.mem_map]
  constructor
  · intro ⟨_, ht⟩
    exact ⟨π.symm q, (hr.mem_taken _).mpr ht, π.apply_symm_apply q⟩
  · rintro ⟨p, hp, rfl⟩
    have ht := (hr.mem_taken p).mp hp
    rw [Equiv.symm_apply_apply]
    exact ⟨hr.inside' p ht, ht⟩

/-- Sorted clockwise from the button, the same seats come in the same order. -/
theorem sorted (hr : SameRing π size size' button taken taken') (hs : taken start = true) {l l' : List SeatId}
    (hl : ∀ p ∈ l, taken p = true) (hperm : l'.Perm (l.map π)) :
    l'.insertionSort (fun a b => clockwiseAwardKey size' (π start) a ≤ clockwiseAwardKey size' (π start) b) =
      (l.insertionSort fun a b => clockwiseAwardKey size start a ≤ clockwiseAwardKey size start b).map π := by
  have htotal : ∀ (size : TableSize) (start : SeatId),
      Std.Total fun a b : SeatId => clockwiseAwardKey size start a ≤ clockwiseAwardKey size start b :=
    fun size start => ⟨fun a b => Nat.le_total _ _⟩
  have htrans : ∀ (size : TableSize) (start : SeatId),
      IsTrans SeatId fun a b => clockwiseAwardKey size start a ≤ clockwiseAwardKey size start b :=
    fun size start => ⟨fun a b c => Nat.le_trans⟩
  have hsorted := List.pairwise_insertionSort (fun a b => clockwiseAwardKey size start a ≤ clockwiseAwardKey size start b) l
  have hall := List.perm_insertionSort (fun a b => clockwiseAwardKey size start a ≤ clockwiseAwardKey size start b) l
  have htaken : ∀ p ∈ l.insertionSort fun a b => clockwiseAwardKey size start a ≤ clockwiseAwardKey size start b,
      taken p = true := fun p hp => hl p (hall.subset hp)
  refine List.Perm.eq_of_pairwise (fun a b ha hb hab hba => ?_) (List.pairwise_insertionSort _ l')
    (List.pairwise_map.mpr (hsorted.imp_of_mem fun {a b} ha hb hab => (hr.order_from hs a b (htaken a ha) (htaken b hb)).mp hab))
    ((List.perm_insertionSort _ l').trans (hperm.trans (hall.symm.map π)))
  obtain ⟨p, hp, rfl⟩ := List.mem_map.mp (hperm.subset ((List.mem_insertionSort _).mp ha))
  obtain ⟨q, hq, rfl⟩ := List.mem_map.mp hb
  rw [hr.key_inj hs (hl p hp) (htaken q hq) hab hba]

/-- The places taken, one after the other round the table. -/
theorem clockwise (hr : SameRing π size size' button taken taken') (hs : taken start = true) :
    (clockwiseFrom size' (π start) 1 size'.get).filter taken' =
      ((clockwiseFrom size start 1 size.get).filter taken).map π := by
  have hall : ∀ p, p ∈ (clockwiseFrom size start 1 size.get).filter taken ↔ taken p = true := by
    intro p
    rw [List.mem_filter, and_iff_right_iff_imp]
    exact fun ht => mem_clockwiseFrom (hr.inside _ hs) (hr.inside _ ht)
  have hall' : ∀ p, p ∈ (clockwiseFrom size' (π start) 1 size'.get).filter taken' ↔ taken (π.symm p) = true := by
    intro p
    have hp := hr.same (π.symm p)
    rw [Equiv.apply_symm_apply] at hp
    rw [List.mem_filter, hp, and_iff_right_iff_imp]
    intro ht
    have hin := hr.inside' _ ht
    rw [Equiv.apply_symm_apply] at hin
    exact mem_clockwiseFrom (hr.inside' _ hs) hin
  have hperm : ((clockwiseFrom size' (π start) 1 size'.get).filter taken').Perm
      (((clockwiseFrom size start 1 size.get).filter taken).map π) := by
    refine (List.perm_ext_iff_of_nodup ((nodup_clockwiseFrom (hr.inside' _ hs)).filter _)
      (((nodup_clockwiseFrom (hr.inside _ hs)).filter _).map π.injective)).mpr fun q => ?_
    rw [hall', List.mem_map]
    constructor
    · exact fun ht => ⟨_, (hall _).mpr ht, π.apply_symm_apply q⟩
    · rintro ⟨p, hp, rfl⟩
      rw [Equiv.symm_apply_apply]
      exact (hall p).mp hp
  have hsorted := hr.sorted hs (fun p hp => (hall p).mp hp) hperm
  rwa [((sorted_clockwiseFrom (hr.inside' _ hs)).filter _).insertionSort_eq,
    ((sorted_clockwiseFrom (hr.inside _ hs)).filter _).insertionSort_eq] at hsorted

end SameRing
end OpenFelt
