/-
  OpenFelt.Lib.Rotation — turns on a ring that others wait to join.

  Places `0 … n - 1`. The `seated` places take turns clockwise; `turn` had the last one.
  A place that waits is seated when its turn comes: of those between `turn` and the next
  seated place the lowest number goes first, and only when there is none does the seated
  place have its turn (`Turn`).

  Going by numbers, the ring is passed in order but for one gap, the one from the highest
  seated place to the lowest: there a place below is taken before the places above, which
  then wait for another round. `Ring.rounds` counts the turns until nobody waits, and
  `Turns.waiting_iff` proves the count exact.
-/

import OpenFelt.Lib.Clockwise
import Mathlib.Data.Finset.Card
import Mathlib.Data.Finset.Max

namespace Rotation

open Clockwise

structure Ring where
  seated : Finset Nat
  waiting : Finset Nat
  turn : Nat

namespace Ring

variable (n : Nat) (r : Ring)

def players : Finset Nat := r.seated ∪ r.waiting

/-- Who waits between the last turn and the next seated place. -/
def coming : Finset Nat := r.waiting.filter fun w => ∀ e ∈ r.seated, gap n r.turn w < gap n r.turn e

/-- Places wait above the highest seated one and below the lowest. -/
def Crosses : Prop := (∃ w ∈ r.waiting, ∀ e ∈ r.seated, e < w) ∧ ∃ w ∈ r.waiting, ∀ e ∈ r.seated, w < e

instance : Decidable r.Crosses := inferInstanceAs (Decidable (_ ∧ _))

/-- The players from the last turn up to the highest seated place. -/
def above : Finset Nat := r.players.filter fun p => r.turn < p ∧ ∃ e ∈ r.seated, p ≤ e

/-- The players from the last turn round to the last who waits. -/
def ahead : Finset Nat := r.players.filter fun p => ∃ w ∈ r.waiting, gap n r.turn p ≤ gap n r.turn w

/-- The turns until nobody waits. -/
def rounds : Nat := if r.Crosses then r.above.card + r.players.card else (r.ahead n).card

structure Valid : Prop where
  inside : ∀ p ∈ r.players, p < n
  apart : Disjoint r.seated r.waiting
  turn : r.turn ∈ r.seated

end Ring

/-- One turn. -/
inductive Turn (n : Nat) (r : Ring) : Ring → Prop
  | enters (c : Nat) : c ∈ r.coming n → (∀ d ∈ r.coming n, c ≤ d) → Turn n r ⟨insert c r.seated, r.waiting.erase c, c⟩
  | passes (e : Nat) : r.coming n = ∅ → e ∈ r.seated → (∀ d ∈ r.seated, gap n r.turn e ≤ gap n r.turn d) →
      Turn n r ⟨r.seated, r.waiting, e⟩

/-- So many turns in a row. -/
inductive Turns (n : Nat) : Nat → Ring → Ring → Prop
  | none (r : Ring) : Turns n 0 r r
  | next {k : Nat} {r r' r'' : Ring} : Turn n r r' → Turns n k r' r'' → Turns n (k + 1) r r''

section turns
variable {n k : Nat} {r r' : Ring}

namespace Ring.Valid

theorem turn_lt (hv : r.Valid n) : r.turn < n := hv.inside _ (Finset.mem_union_left _ hv.turn)

theorem ne_turn (hv : r.Valid n) {w : Nat} (hw : w ∈ r.waiting) : w ≠ r.turn := by
  rintro rfl
  exact Finset.disjoint_left.mp hv.apart hv.turn hw

end Ring.Valid

theorem Turn.players (ht : Turn n r r') : r'.players = r.players := by
  cases ht with
  | enters c hc _ =>
    have hw : c ∈ r.waiting := (Finset.mem_filter.mp hc).1
    ext p
    simp only [Ring.players, Finset.mem_union, Finset.mem_insert, Finset.mem_erase]
    by_cases hp : p = c
    · subst hp
      simp [hw]
    · simp [hp]
  | passes => rfl

theorem Turn.valid (hv : r.Valid n) (ht : Turn n r r') : r'.Valid n := by
  refine ⟨fun p hp => hv.inside p (ht.players ▸ hp), ?_, ?_⟩
  · cases ht with
    | enters c hc _ =>
      rw [Finset.disjoint_left]
      intro p hp hw
      obtain ⟨hne, hw⟩ := Finset.mem_erase.mp hw
      rcases Finset.mem_insert.mp hp with rfl | hp
      · exact hne rfl
      · exact Finset.disjoint_left.mp hv.apart hp hw
    | passes => exact hv.apart
  · cases ht with
    | enters c => exact Finset.mem_insert_self _ _
    | passes e _ he => exact he

/-! ## Counting -/

theorem rounds_empty (hw : r.waiting = ∅) : r.rounds n = 0 := by
  have hcross : ¬ r.Crosses := by
    rintro ⟨⟨w, hmem, _⟩, _⟩
    rw [hw] at hmem
    exact absurd hmem (Finset.notMem_empty w)
  rw [Ring.rounds, if_neg hcross, Finset.card_eq_zero, Ring.ahead, hw]
  simp

theorem rounds_pos (hw : r.waiting.Nonempty) : 0 < r.rounds n := by
  obtain ⟨w, hw⟩ := hw
  have hp : w ∈ r.players := Finset.mem_union_right _ hw
  unfold Ring.rounds
  split
  · have := Finset.card_pos.mpr ⟨w, hp⟩
    omega
  · exact Finset.card_pos.mpr ⟨w, Finset.mem_filter.mpr ⟨hp, w, hw, Nat.le_refl _⟩⟩

/-! ## One turn -/

theorem Turn.mem_waiting (hv : r.Valid n) (ht : Turn n r r') {w : Nat} : w ∈ r'.waiting ↔ w ≠ r'.turn ∧ w ∈ r.waiting := by
  cases ht with
  | enters c => exact Finset.mem_erase
  | passes e _ he =>
    constructor
    · intro hw
      refine ⟨?_, hw⟩
      rintro rfl
      exact Finset.disjoint_left.mp hv.apart he hw
    · exact fun h => h.2

theorem Turn.mem_seated (ht : Turn n r r') {e : Nat} : e ∈ r'.seated ↔ e = r'.turn ∨ e ∈ r.seated := by
  cases ht with
  | enters c => exact Finset.mem_insert
  | passes e' _ he =>
    constructor
    · exact Or.inr
    · rintro (rfl | h)
      · exact he
      · exact h

theorem Turn.mem_players (hv : r.Valid n) (ht : Turn n r r') : r'.turn ∈ r.players :=
  ht.players ▸ Finset.mem_union_left _ (ht.valid hv).turn

theorem not_coming {w : Nat} (hw : w ∈ r.waiting) (h : w ∉ r.coming n) : ∃ e ∈ r.seated, gap n r.turn e ≤ gap n r.turn w := by
  by_contra hnone
  push Not at hnone
  exact h (Finset.mem_filter.mpr ⟨hw, hnone⟩)

/-- But at the highest seated place, the turn goes to the next player. -/
theorem Turn.nearest (hv : r.Valid n) (ht : Turn n r r') (hinside : ¬ (r.Crosses ∧ ∀ e ∈ r.seated, e ≤ r.turn)) {p : Nat}
    (hp : p ∈ r.players) : gap n r.turn r'.turn ≤ gap n r.turn p := by
  have hs := hv.turn_lt
  cases ht with
  | passes e hnone _ hleast =>
    rcases Finset.mem_union.mp hp with hp | hp
    · exact hleast p hp
    · obtain ⟨d, hd, hle⟩ := not_coming hp (hnone ▸ Finset.notMem_empty p)
      exact Nat.le_trans (hleast d hd) hle
  | enters c hc hlowest =>
    obtain ⟨hcw, hbefore⟩ := Finset.mem_filter.mp hc
    rcases Finset.mem_union.mp hp with hpe | hpw
    · exact Nat.le_of_lt (hbefore p hpe)
    by_cases hcoming : p ∈ r.coming n
    · have hle := hlowest p hcoming
      have hcn : c < n := hv.inside c (Finset.mem_union_right _ hcw)
      have hpn : p < n := hv.inside p hp
      have hcs := hv.ne_turn hcw
      by_contra hgap
      rw [gap_eq hs hcn, gap_eq hs hpn] at hgap
      have hwrap : c < r.turn ∧ r.turn < p := by
        split at hgap <;> split at hgap <;> omega
      have hmax : ∀ e ∈ r.seated, e ≤ r.turn := by
        intro e he
        have hgap' := hbefore e he
        have hen := hv.inside e (Finset.mem_union_left _ he)
        rw [gap_eq hs hcn, gap_eq hs hen, if_neg (by omega)] at hgap'
        split at hgap' <;> omega
      refine hinside ⟨⟨⟨p, hpw, fun e he => ?_⟩, c, hcw, fun e he => ?_⟩, hmax⟩
      · have := hmax e he
        omega
      · have hgap' := hbefore e he
        have := hmax e he
        rw [gap_eq hs hcn, gap_eq hs (hv.inside e (Finset.mem_union_left _ he)), if_neg (by omega), if_neg (by omega)] at hgap'
        omega
    · obtain ⟨d, hd, hle⟩ := not_coming hpw hcoming
      exact Nat.le_trans (Nat.le_of_lt (hbefore d hd)) hle

theorem Turn.ahead (hv : r.Valid n) (ht : Turn n r r') (hw : r.waiting.Nonempty)
    (hnear : ∀ p ∈ r.players, gap n r.turn r'.turn ≤ gap n r.turn p) : (r'.ahead n).card + 1 = (r.ahead n).card := by
  have hs := hv.turn_lt
  have hc := ht.mem_players hv
  have hcn := hv.inside _ hc
  have hpassed : ∀ p ∈ r.players, p ≠ r'.turn → gap n r'.turn p + gap n r.turn r'.turn = gap n r.turn p := by
    intro p hp hne
    refine gap_from hs hcn (hv.inside p hp) (Nat.lt_of_le_of_ne (hnear p hp) fun he => ?_)
    exact hne (gap_inj hs hcn (hv.inside p hp) he).symm
  have herase : r'.ahead n = (r.ahead n).erase r'.turn := by
    ext p
    simp only [Ring.ahead, Finset.mem_filter, Finset.mem_erase, ht.players]
    constructor
    · rintro ⟨hp, w, hw, hle⟩
      obtain ⟨hne, hw⟩ := (ht.mem_waiting hv).mp hw
      have hwp : w ∈ r.players := Finset.mem_union_right _ hw
      have hfrom := hpassed w hwp hne
      have hpne : p ≠ r'.turn := by
        rintro rfl
        have hlt := gap_le (n := n) (i := r.turn) (j := w) (by omega)
        have hpos := gap_pos (n := n) (i := r.turn) (j := r'.turn) (by omega)
        rw [gap_eq hcn hcn, if_neg (Nat.lt_irrefl _)] at hle
        omega
      refine ⟨hpne, hp, w, hw, ?_⟩
      have := hpassed p hp hpne
      omega
    · rintro ⟨hne, hp, w, hw, hle⟩
      have hwp : w ∈ r.players := Finset.mem_union_right _ hw
      have hwne : w ≠ r'.turn := by
        rintro rfl
        exact hne (gap_inj hs (hv.inside p hp) hcn (Nat.le_antisymm hle (hnear p hp)))
      refine ⟨hp, w, (ht.mem_waiting hv).mpr ⟨hwne, hw⟩, ?_⟩
      have h1 := hpassed p hp hne
      have h2 := hpassed w hwp hwne
      omega
  obtain ⟨w, hw⟩ := hw
  rw [herase]
  exact Finset.card_erase_add_one (Finset.mem_filter.mpr ⟨hc, w, hw, hnear w (Finset.mem_union_right _ hw)⟩)

/-- Below the highest seated place the turn moves up. -/
theorem Turn.above (hv : r.Valid n) (ht : Turn n r r') {e : Nat} (he : e ∈ r.seated) (hlt : r.turn < e)
    (hnear : ∀ p ∈ r.players, gap n r.turn r'.turn ≤ gap n r.turn p) :
    r.turn < r'.turn ∧ r'.turn ≤ e ∧ r'.above.card + 1 = r.above.card := by
  have hs := hv.turn_lt
  have hc := ht.mem_players hv
  have hcn := hv.inside _ hc
  have hup : ∀ p ∈ r.players, r.turn < p → r.turn < r'.turn ∧ r'.turn ≤ p := by
    intro p hp hlt
    have hgap := hnear p hp
    rw [gap_eq hs hcn, gap_eq hs (hv.inside p hp), if_pos hlt] at hgap
    have := hv.inside p hp
    split at hgap <;> omega
  obtain ⟨hfirst, hle⟩ := hup e (Finset.mem_union_left _ he) hlt
  refine ⟨hfirst, hle, ?_⟩
  have herase : r'.above = r.above.erase r'.turn := by
    ext p
    simp only [Ring.above, Finset.mem_filter, Finset.mem_erase, ht.players, ht.mem_seated]
    constructor
    · rintro ⟨hp, hlt, d, hd, hle⟩
      refine ⟨by omega, hp, by omega, ?_⟩
      rcases hd with rfl | hd
      · omega
      · exact ⟨d, hd, hle⟩
    · rintro ⟨hne, hp, hlt, d, hd, hle⟩
      have := (hup p hp hlt).2
      exact ⟨hp, by omega, d, Or.inr hd, hle⟩
  rw [herase]
  exact Finset.card_erase_add_one (Finset.mem_filter.mpr ⟨hc, hfirst, e, he, hle⟩)

/-- At the highest seated place the lowest player of all comes before the places above. -/
theorem Turn.jump (hv : r.Valid n) (ht : Turn n r r') (hcross : r.Crosses) (hmax : ∀ e ∈ r.seated, e ≤ r.turn) :
    ¬ r'.Crosses ∧ (r'.ahead n).card + 1 = r.players.card ∧ r.above = ∅ := by
  obtain ⟨⟨top, htop, habove⟩, low, hlow, hbelow⟩ := hcross
  have hs := hv.turn_lt
  have hcoming : ∀ w ∈ r.waiting, (∀ e ∈ r.seated, e < w) ∨ (∀ e ∈ r.seated, w < e) → w ∈ r.coming n := by
    intro w hw hout
    refine Finset.mem_filter.mpr ⟨hw, fun e he => ?_⟩
    have hwn := hv.inside w (Finset.mem_union_right _ hw)
    have hen := hv.inside e (Finset.mem_union_left _ he)
    have hes := hmax e he
    rw [gap_eq hs hwn, gap_eq hs hen]
    rcases hout with hout | hout
    · have h1 := hout r.turn hv.turn
      rw [if_pos h1, if_neg (by omega)]
      omega
    · have h1 := hout r.turn hv.turn
      have h2 := hout e he
      rw [if_neg (by omega), if_neg (by omega)]
      omega
  have htopc := hcoming top htop (Or.inl habove)
  have hturn : r'.turn ∈ r.waiting ∧ ∀ d ∈ r.coming n, r'.turn ≤ d := by
    cases ht with
    | passes e hnone =>
      rw [hnone] at htopc
      exact absurd htopc (Finset.notMem_empty top)
    | enters c hc hlowest => exact ⟨(Finset.mem_filter.mp hc).1, hlowest⟩
  obtain ⟨hcw, hlowest⟩ := hturn
  have hunder : ∀ e ∈ r.seated, r'.turn < e := by
    intro e he
    have := hlowest low (hcoming low hlow (Or.inr hbelow))
    have := hbelow e he
    omega
  have hleast : ∀ p ∈ r.players, r'.turn ≤ p := by
    intro p hp
    rcases Finset.mem_union.mp hp with hp | hp
    · exact Nat.le_of_lt (hunder p hp)
    by_cases hout : ∀ e ∈ r.seated, p < e
    · exact hlowest p (hcoming p hp (Or.inr hout))
    · push Not at hout
      obtain ⟨e, he, hle⟩ := hout
      have := hunder e he
      omega
  have hc := ht.mem_players hv
  have hcn := hv.inside _ hc
  refine ⟨?_, ?_, ?_⟩
  · rintro ⟨_, w, hw, hunderw⟩
    have h1 := hunderw r'.turn (ht.mem_seated.mpr (Or.inl rfl))
    have h2 := hleast w (Finset.mem_union_right _ ((ht.mem_waiting hv).mp hw).2)
    omega
  · have hne : r.players.Nonempty := ⟨_, hc⟩
    have hmaxw : r.players.max' hne ∈ r.waiting := by
      rcases Finset.mem_union.mp (r.players.max'_mem hne) with hm | hm
      · have h1 := habove _ hm
        have h2 := r.players.le_max' top (Finset.mem_union_right _ htop)
        omega
      · exact hm
    have herase : r'.ahead n = r.players.erase r'.turn := by
      ext p
      simp only [Ring.ahead, Finset.mem_filter, Finset.mem_erase, ht.players]
      constructor
      · rintro ⟨hp, w, hw, hle⟩
        refine ⟨?_, hp⟩
        rintro rfl
        obtain ⟨hwne, hw⟩ := (ht.mem_waiting hv).mp hw
        have hwp : w ∈ r.players := Finset.mem_union_right _ hw
        have h1 := hleast w hwp
        rw [gap_eq hcn hcn, gap_eq hcn (hv.inside w hwp), if_neg (Nat.lt_irrefl _), if_pos (by omega)] at hle
        have := hv.inside w hwp
        omega
      · rintro ⟨hpne, hp⟩
        have hle := r.players.le_max' p hp
        have hlt : r'.turn < p := Nat.lt_of_le_of_ne (hleast p hp) (Ne.symm hpne)
        refine ⟨hp, r.players.max' hne, (ht.mem_waiting hv).mpr ⟨by omega, hmaxw⟩, ?_⟩
        rw [gap_eq hcn (hv.inside p hp), gap_eq hcn (hv.inside _ (r.players.max'_mem hne)), if_pos hlt, if_pos (by omega)]
        omega
    rw [herase]
    exact Finset.card_erase_add_one hc
  · rw [Ring.above, Finset.filter_eq_empty_iff]
    rintro p _ ⟨hlt, e, he, hle⟩
    have := hmax e he
    omega

/-- Each turn takes one off the count. -/
theorem Turn.rounds (hv : r.Valid n) (ht : Turn n r r') (hw : r.waiting.Nonempty) : r'.rounds n + 1 = r.rounds n := by
  by_cases hjump : r.Crosses ∧ ∀ e ∈ r.seated, e ≤ r.turn
  · obtain ⟨hcross, hmax⟩ := hjump
    obtain ⟨hstays, hcount, hnone⟩ := ht.jump hv hcross hmax
    rw [Ring.rounds, if_neg hstays, hcount, Ring.rounds, if_pos hcross, hnone, Finset.card_empty, Nat.zero_add]
  have hnear : ∀ p ∈ r.players, gap n r.turn r'.turn ≤ gap n r.turn p := fun p => ht.nearest hv hjump
  by_cases hcross : r.Crosses
  · have hhigher : ∃ e ∈ r.seated, r.turn < e := by
      by_contra hnone
      push Not at hnone
      exact hjump ⟨hcross, hnone⟩
    obtain ⟨e, he, hlt⟩ := hhigher
    obtain ⟨hup, hle, hcount⟩ := ht.above hv he hlt hnear
    have hcross' : r'.Crosses := by
      obtain ⟨⟨top, htop, habove⟩, low, hlow, hbelow⟩ := hcross
      have h1 := habove e he
      have h2 := hbelow r.turn hv.turn
      refine ⟨⟨top, (ht.mem_waiting hv).mpr ⟨by omega, htop⟩, fun d hd => ?_⟩,
        low, (ht.mem_waiting hv).mpr ⟨by omega, hlow⟩, fun d hd => ?_⟩
      · rcases ht.mem_seated.mp hd with rfl | hd
        · omega
        · exact habove d hd
      · rcases ht.mem_seated.mp hd with rfl | hd
        · omega
        · exact hbelow d hd
    rw [Ring.rounds, if_pos hcross', Ring.rounds, if_pos hcross, ht.players]
    omega
  · have hcross' : ¬ r'.Crosses := by
      rintro ⟨⟨top, htop, habove⟩, low, hlow, hbelow⟩
      exact hcross ⟨⟨top, ((ht.mem_waiting hv).mp htop).2, fun e he => habove e (ht.mem_seated.mpr (Or.inr he))⟩,
        low, ((ht.mem_waiting hv).mp hlow).2, fun e he => hbelow e (ht.mem_seated.mpr (Or.inr he))⟩
    rw [Ring.rounds, if_neg hcross', Ring.rounds, if_neg hcross]
    exact ht.ahead hv hw hnear

/-! ## Any number of turns -/

theorem Turns.valid (hv : r.Valid n) (ht : Turns n k r r') : r'.Valid n := by
  induction ht with
  | none => exact hv
  | next hturn _ ih => exact ih (hturn.valid hv)

/-- Nobody waits any more after `rounds` turns, and not before. -/
theorem Turns.waiting_iff (hv : r.Valid n) (ht : Turns n k r r') : r'.waiting = ∅ ↔ r.rounds n ≤ k := by
  have hzero : ∀ r : Ring, r.waiting = ∅ ↔ r.rounds n = 0 := by
    intro r
    refine ⟨rounds_empty, fun h => ?_⟩
    by_contra hne
    have := rounds_pos (n := n) (Finset.nonempty_iff_ne_empty.mpr hne)
    omega
  induction ht with
  | none r => rw [hzero, Nat.le_zero]
  | @next k r r' r'' hturn _ ih =>
    refine Iff.trans (ih (hturn.valid hv)) ?_
    rcases Finset.eq_empty_or_nonempty r.waiting with hnone | hw
    · have hnone' : r'.waiting = ∅ := by
        rw [Finset.eq_empty_iff_forall_notMem]
        intro w hw
        have := ((hturn.mem_waiting hv).mp hw).2
        rw [hnone] at this
        exact absurd this (Finset.notMem_empty w)
      rw [(hzero r').mp hnone', (hzero r).mp hnone]
      exact ⟨fun _ => Nat.zero_le _, fun _ => Nat.zero_le _⟩
    · have := hturn.rounds hv hw
      omega

/-- Where the ring is passed in order, no more turns than there are others. -/
theorem rounds_inside (hv : r.Valid n) (hcross : ¬ r.Crosses) : r.rounds n < r.players.card := by
  rw [Ring.rounds, if_neg hcross]
  refine Finset.card_lt_card ⟨Finset.filter_subset _ _, fun hall => ?_⟩
  obtain ⟨_, w, hw, hle⟩ := Finset.mem_filter.mp (hall (Finset.mem_union_left _ hv.turn))
  have hs := hv.turn_lt
  have hne := hv.ne_turn hw
  have hwn := hv.inside w (Finset.mem_union_right _ hw)
  rw [gap_eq hs hs, gap_eq hs hwn, if_neg (Nat.lt_irrefl _)] at hle
  split at hle <;> omega

theorem Ring.Valid.card_le (hv : r.Valid n) : r.players.card ≤ n := by
  have hsub : r.players ⊆ Finset.range n := fun p hp => Finset.mem_range.mpr (hv.inside p hp)
  exact (Finset.card_le_card hsub).trans (Nat.le_of_eq (Finset.card_range n))

/-- The wait is shorter than the ring unless the ring is crossed late. -/
theorem rounds_lt_iff (hv : r.Valid n) : r.rounds n < n ↔ (r.Crosses → r.above.card + r.players.card < n) := by
  by_cases hcross : r.Crosses
  · rw [Ring.rounds, if_pos hcross]
    exact ⟨fun h _ => h, fun h => h hcross⟩
  · exact ⟨fun _ h => absurd h hcross, fun _ => Nat.lt_of_lt_of_le (rounds_inside hv hcross) hv.card_le⟩

end turns

end Rotation
