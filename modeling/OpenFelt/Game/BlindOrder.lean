/-
  OpenFelt.Game.BlindOrder — the seats counted from the last button.

  The next hand takes its button, small blind and big blind in this order, so the big
  blind is the seat with two dealt-in seats before it, heads-up the seat with one.

  Proved:
  - `promoted_eq`: a waiting player is promoted when exactly that many eligible seats come
    first, and of several such players the one with the lowest seat (`comer`).
  - `comer_heads_up`: of two eligible seats one had the button: then nobody is promoted.
  - `bigBlind_before`: with three seats dealt in, two are before the big blind.
-/

import OpenFelt.Game.Positions
import OpenFelt.Lib.Rotation

namespace OpenFelt

/-- The seats of `f` that come before a seat, going clockwise from `start`. -/
def seatsBefore (size : TableSize) (start : SeatId) (f : SeatId → Bool) (p : SeatId) : Finset SeatId :=
  Finset.univ.filter fun q => q.val < size.get ∧ f q = true ∧ clockwiseAwardKey size start q < clockwiseAwardKey size start p

section order
variable {size : TableSize} {start p q r : SeatId} {f : SeatId → Bool}

/-- How far it is from one seat to another, measured from a third. -/
theorem key_from (hs : start.val < size.get) (hp : p.val < size.get) (hq : q.val < size.get) :
    clockwiseAwardKey size p q =
      if clockwiseAwardKey size start p < clockwiseAwardKey size start q then
        clockwiseAwardKey size start q - clockwiseAwardKey size start p
      else clockwiseAwardKey size start q + size.get - clockwiseAwardKey size start p := Clockwise.gap_seen hs hp hq

theorem mem_seatsBefore : q ∈ seatsBefore size start f p ↔
    q.val < size.get ∧ f q = true ∧ clockwiseAwardKey size start q < clockwiseAwardKey size start p := by
  simp [seatsBefore]

/-- Further on, more seats are before. -/
theorem card_before_le (h : clockwiseAwardKey size start p ≤ clockwiseAwardKey size start q) :
    (seatsBefore size start f p).card ≤ (seatsBefore size start f q).card := by
  refine Finset.card_le_card fun w hw => ?_
  obtain ⟨hin, hfw, hlt⟩ := mem_seatsBefore.mp hw
  exact mem_seatsBefore.mpr ⟨hin, hfw, by omega⟩

/-- The nearest other seat is the nearest further on, when one is. -/
theorem next_nearest (hs : start.val < size.get) (h : size.nextEligible p f = some q) (hr : r.val < size.get) (hfr : f r = true)
    (hlt : clockwiseAwardKey size start p < clockwiseAwardKey size start r) :
    clockwiseAwardKey size start p < clockwiseAwardKey size start q ∧
      clockwiseAwardKey size start q ≤ clockwiseAwardKey size start r := by
  obtain ⟨hp, hq, _, hne, hnear⟩ := nextEligible_some h
  have hrp : r ≠ p := by
    rintro rfl
    omega
  have hle := hnear r hr hfr hrp
  rw [key_from hs hp hq, key_from hs hp hr, if_pos hlt] at hle
  have h1 := (seatWrapped_key hs hq).2
  have h2 := (seatWrapped_key hs hr).2
  have h3 := (seatWrapped_key hs hp).2
  split at hle <;> omega

/-- One more seat is before the next one. -/
theorem card_before_next (hs : start.val < size.get) (hfp : f p = true) (h : size.nextEligible p f = some q)
    (hlater : ∃ r : SeatId, r.val < size.get ∧ f r = true ∧ clockwiseAwardKey size start p < clockwiseAwardKey size start r) :
    (seatsBefore size start f q).card = (seatsBefore size start f p).card + 1 := by
  obtain ⟨hp, hq, hfq, _⟩ := nextEligible_some h
  obtain ⟨r, hr, hfr, hlt⟩ := hlater
  have hpq := (next_nearest hs h hr hfr hlt).1
  have hout : p ∉ seatsBefore size start f p := by
    rw [mem_seatsBefore]
    exact fun h => Nat.lt_irrefl _ h.2.2
  rw [← Finset.card_insert_of_notMem hout]
  congr 1
  ext w
  rw [Finset.mem_insert, mem_seatsBefore, mem_seatsBefore]
  constructor
  · rintro ⟨hw, hfw, hwq⟩
    rcases Nat.lt_trichotomy (clockwiseAwardKey size start w) (clockwiseAwardKey size start p) with hwp | hwp | hwp
    · exact Or.inr ⟨hw, hfw, hwp⟩
    · exact Or.inl (clockwiseAwardKey_inj hs hw hp hwp)
    · have := (next_nearest hs h hw hfw hwp).2
      omega
  · rintro (rfl | ⟨hw, hfw, hwp⟩)
    · exact ⟨hp, hfp, hpq⟩
    · exact ⟨hw, hfw, by omega⟩

/-- No seat is before the first. -/
theorem card_before_first (hs : start.val < size.get) (h : (clockwiseFrom size start 1 size.get).find? f = some p) :
    (seatsBefore size start f p).card = 0 := by
  obtain ⟨_, _, hleast⟩ := find_clockwise hs h
  rw [Finset.card_eq_zero, Finset.eq_empty_iff_forall_notMem]
  intro w hw
  obtain ⟨hw, hfw, hlt⟩ := mem_seatsBefore.mp hw
  have := hleast w hw hfw
  omega

/-- While seats are left, one is further on. -/
theorem exists_later (hcount : (seatsBefore size start f p).card + 1 < (size.seats.filter f).length) (hs : start.val < size.get)
    (hp : p.val < size.get) :
    ∃ r : SeatId, r.val < size.get ∧ f r = true ∧ clockwiseAwardKey size start p < clockwiseAwardKey size start r := by
  by_contra hnone
  push Not at hnone
  have hsub : (size.seats.filter f).toFinset ⊆ insert p (seatsBefore size start f p) := by
    intro w hw
    obtain ⟨hmem, hfw⟩ := List.mem_filter.mp (List.mem_toFinset.mp hw)
    have hw := size.mem_seats.mp hmem
    rw [Finset.mem_insert, mem_seatsBefore]
    by_cases heq : w = p
    · exact Or.inl heq
    · have hle := hnone w hw hfw
      have hne : clockwiseAwardKey size start w ≠ clockwiseAwardKey size start p :=
        fun he => heq (clockwiseAwardKey_inj hs hw hp he)
      exact Or.inr ⟨hw, hfw, by omega⟩
  have hle := Finset.card_le_card hsub
  rw [List.toFinset_card_of_nodup (size.nodup_seats.filter _)] at hle
  have := Finset.card_insert_le p (seatsBefore size start f p)
  omega

/-- Two seats do not have the same number of seats before them. -/
theorem before_inj (hs : start.val < size.get) (hp : p.val < size.get) (hq : q.val < size.get) (hfp : f p = true)
    (hfq : f q = true)
    (h : (seatsBefore size start f p).card = (seatsBefore size start f q).card) : p = q := by
  have hless : ∀ {a b : SeatId}, a.val < size.get → f a = true → clockwiseAwardKey size start a < clockwiseAwardKey size start b →
      (seatsBefore size start f a).card < (seatsBefore size start f b).card := by
    intro a b ha hfa hlt
    refine Finset.card_lt_card ⟨fun w hw => ?_, fun hsub => ?_⟩
    · obtain ⟨hw, hfw, hwa⟩ := mem_seatsBefore.mp hw
      exact mem_seatsBefore.mpr ⟨hw, hfw, by omega⟩
    · exact Nat.lt_irrefl _ (mem_seatsBefore.mp (hsub (mem_seatsBefore.mpr ⟨ha, hfa, hlt⟩))).2.2
  rcases Nat.lt_trichotomy (clockwiseAwardKey size start p) (clockwiseAwardKey size start q) with hlt | heq | hlt
  · have := hless hp hfp hlt
    omega
  · exact clockwiseAwardKey_inj hs hp hq heq
  · have := hless hq hfq hlt
    omega

/-- The first three seats. -/
theorem first_three (hs : start.val < size.get) (hcount : 2 ≤ (size.seats.filter f).length) :
    ∃ a b, (clockwiseFrom size start 1 size.get).find? f = some a ∧ size.nextEligible a f = some b ∧
      b.val < size.get ∧ f b = true ∧ (seatsBefore size start f b).card = 1 ∧
      (3 ≤ (size.seats.filter f).length → ∃ c, size.nextEligible b f = some c ∧ c.val < size.get ∧ f c = true ∧
        (seatsBefore size start f c).card = 2) := by
  obtain ⟨a, hfirst⟩ : ∃ a, (clockwiseFrom size start 1 size.get).find? f = some a := by
    cases hnone : (clockwiseFrom size start 1 size.get).find? f with
    | some a => exact ⟨a, rfl⟩
    | none =>
      obtain ⟨q, hq⟩ := List.exists_mem_of_length_pos (Nat.lt_of_lt_of_le Nat.two_pos hcount)
      obtain ⟨hq, hfq⟩ := List.mem_filter.mp hq
      have hout := find_clockwise_none hs hnone q (size.mem_seats.mp hq)
      rw [hfq] at hout
      cases hout
  have hnext : ∀ p : SeatId, p.val < size.get → f p = true →
      (seatsBefore size start f p).card + 1 < (size.seats.filter f).length →
      ∃ q, size.nextEligible p f = some q ∧ q.val < size.get ∧ f q = true ∧
        (seatsBefore size start f q).card = (seatsBefore size start f p).card + 1 := by
    intro p hp hfp hless
    have hlater := exists_later hless hs hp
    obtain ⟨r, hr, hfr, hlt⟩ := id hlater
    obtain ⟨q, hq⟩ := nextEligible_isSome hp hr hfr (by rintro rfl; exact Nat.lt_irrefl _ hlt)
    obtain ⟨_, hqin, hfq, _⟩ := nextEligible_some hq
    exact ⟨q, hq, hqin, hfq, card_before_next hs hfp hq hlater⟩
  obtain ⟨ha, hfa, _⟩ := find_clockwise hs hfirst
  have hzero := card_before_first hs hfirst
  obtain ⟨b, hb, hbin, hfb, hone⟩ := hnext a ha hfa (by omega)
  refine ⟨a, b, hfirst, hb, hbin, hfb, by rw [hone, hzero], fun hthree => ?_⟩
  obtain ⟨c, hc, hcin, hfc, htwo⟩ := hnext b hbin hfb (by omega)
  exact ⟨c, hc, hcin, hfc, by rw [htwo, hone, hzero]⟩

end order

/-- `TableSize::seats` ends with it. -/
def TableSize.lastSeat (size : TableSize) : SeatId :=
  ⟨size.get - 1, Nat.lt_of_lt_of_le (Nat.sub_lt size.pos Nat.one_pos) size.le_nine⟩

theorem TableSize.lastSeat_lt (size : TableSize) : size.lastSeat.val < size.get := Nat.sub_lt size.pos Nat.one_pos

/-- All seats in order are a turn from the last. -/
theorem TableSize.clockwise_lastSeat (size : TableSize) : clockwiseFrom size size.lastSeat 1 size.get = size.seats := by
  have hpos := size.pos
  refine List.ext_getElem (by simp [clockwiseFrom, TableSize.seats]) fun i hi _ => ?_
  have hlt : i < size.get := by simpa [clockwiseFrom] using hi
  simp only [clockwiseFrom, TableSize.seats, List.getElem_map, List.getElem_range', List.getElem_finRange]
  apply Fin.ext
  simp only [seatWrapped, lastSeat, Fin.val_castLE]
  rw [show size.get - 1 + (1 + 1 * i) = i + size.get by omega, Nat.add_mod_right, Nat.mod_eq_of_lt hlt]
  rfl

namespace TableLifecycle

variable (t : TableLifecycle)

/-- The player of the seat waits for the big blind. -/
def waits (p : SeatId) : Bool := (t.seats.seat p).any (·.tableParticipation = .waitingForBlind)

/-- The last button. The first hand counts from the last seat. -/
def lastDealer : SeatId := t.lastButton.getD t.tableSize.lastSeat

/-- How many eligible seats come before a seat. -/
def before (p : SeatId) : Nat := (seatsBefore t.tableSize t.lastDealer t.seats.eligible p).card

/-- The lowest waiting seat that has two eligible seats before it, or the only one. -/
def comer : Option SeatId := t.waiters.find? fun p => t.before p = min 2 t.eligibleCount

variable {t} {p q c : SeatId}

theorem waits_iff : t.waits p = true ↔ ∃ st, t.seats.seat p = some st ∧ st.tableParticipation = .waitingForBlind := by
  unfold waits
  cases t.seats.seat p <;> simp

/-- Who waits is not dealt in. -/
theorem waits_ineligible (h : t.waits p = true) : t.seats.eligible p = false := by
  obtain ⟨st, hst, hwaits⟩ := waits_iff.mp h
  rw [TableSeats.eligible, hst]
  simp [SeatState.eligibleForNextHand, hwaits]

theorem mem_waiters : p ∈ t.waiters ↔ t.waits p = true := by
  rw [waits_iff]
  simp only [waiters, List.mem_map, List.mem_filter, Prod.exists, TableSeats.mem_occupied]
  constructor
  · rintro ⟨q, st, ⟨hst, hwaits⟩, rfl⟩
    exact ⟨st, hst, by simpa using hwaits⟩
  · rintro ⟨st, hst, hwaits⟩
    exact ⟨p, st, ⟨hst, by simpa using hwaits⟩, rfl⟩

theorem Ring.waits_inside (hr : t.Ring) (h : t.waits p = true) : p.val < t.tableSize.get := by
  obtain ⟨st, hst, _⟩ := waits_iff.mp h
  have hin := t.seats.inside p st hst
  rw [hr.size] at hin
  simpa [TableSize.contains] using hin

theorem Ring.eligible_inside (hr : t.Ring) (h : t.seats.eligible p = true) : p.val < t.tableSize.get :=
  hr.size ▸ TableSeats.inside_of_eligible h

theorem Ring.lastDealer_lt (hr : t.Ring) : t.lastDealer.val < t.tableSize.get := by
  unfold lastDealer
  cases hlast : t.lastButton with
  | none => exact t.tableSize.lastSeat_lt
  | some last =>
    have hin := hr.button last hlast
    simpa [TableSize.contains] using hin

/-- The button goes to the first seat of the order. -/
theorem Ring.first_button (hr : t.Ring) {f : SeatId → Bool} (hcount : 2 ≤ (t.tableSize.seats.filter f).length) :
    (match t.lastButton with
      | some last => t.tableSize.nextEligible last f
      | none => t.tableSize.seats.find? f) = (clockwiseFrom t.tableSize t.lastDealer 1 t.tableSize.get).find? f := by
  have hs := hr.lastDealer_lt
  unfold lastDealer at hs ⊢
  cases hlast : t.lastButton with
  | none => rw [Option.getD_none, t.tableSize.clockwise_lastSeat]
  | some last =>
    rw [hlast] at hs
    obtain ⟨r, hr, hfr, hne⟩ : ∃ r : SeatId, r.val < t.tableSize.get ∧ f r = true ∧ r ≠ last := by
      obtain ⟨a, b, hfirst, hb, hbin, hfb, _⟩ := first_three hs hcount
      obtain ⟨ha, hfa, _⟩ := find_clockwise hs hfirst
      by_cases hne : a = last
      · exact ⟨b, hbin, hfb, hne ▸ (nextEligible_some hb).2.2.2.1⟩
      · exact ⟨a, ha, hfa, hne⟩
    obtain ⟨b, hb⟩ := nextEligible_isSome hs hr hfr hne
    exact hb.trans (find_turn hs hb).symm

/-! ## Who is promoted -/

theorem prospective_iff (hw : t.waits c = true) : t.prospective c q = true ↔ q = c ∨ t.seats.eligible q = true := by
  obtain ⟨st, hst, _⟩ := waits_iff.mp hw
  rw [prospective, Bool.or_eq_true, Bool.and_eq_true, decide_eq_true_eq, or_comm]
  refine or_congr ⟨fun h => h.2, ?_⟩ Iff.rfl
  rintro rfl
  exact ⟨by rw [hst]; rfl, rfl⟩

/-- With the waiting player there is one more. -/
theorem Ring.prospective_count (hr : t.Ring) (hw : t.waits c = true) :
    (t.tableSize.seats.filter (t.prospective c)).length = t.eligibleCount + 1 := by
  have hout : c ∉ (t.tableSize.seats.filter t.seats.eligible).toFinset := by
    rw [List.mem_toFinset, List.mem_filter, waits_ineligible hw]
    exact fun h => Bool.false_ne_true h.2
  have hset : (t.tableSize.seats.filter (t.prospective c)).toFinset =
      insert c (t.tableSize.seats.filter t.seats.eligible).toFinset := by
    ext q
    rw [Finset.mem_insert, List.mem_toFinset, List.mem_toFinset, List.mem_filter, List.mem_filter, prospective_iff hw]
    constructor
    · rintro ⟨hq, rfl | hel⟩
      · exact Or.inl rfl
      · exact Or.inr ⟨hq, hel⟩
    · rintro (rfl | ⟨hq, hel⟩)
      · exact ⟨t.tableSize.mem_seats.mpr (hr.waits_inside hw), Or.inl rfl⟩
      · exact ⟨hq, Or.inr hel⟩
  have hcard := congrArg Finset.card hset
  rw [Finset.card_insert_of_notMem hout, List.toFinset_card_of_nodup (t.tableSize.nodup_seats.filter _),
    List.toFinset_card_of_nodup (t.tableSize.nodup_seats.filter _)] at hcard
  rw [hcard, eligibleCount, TableSeats.eligibleCount_eq, hr.size]

theorem seatsBefore_prospective (hw : t.waits c = true) :
    (seatsBefore t.tableSize t.lastDealer (t.prospective c) c).card = t.before c := by
  unfold before
  congr 1
  ext q
  rw [mem_seatsBefore, mem_seatsBefore, prospective_iff hw]
  constructor
  · rintro ⟨hq, rfl | hel, hlt⟩
    · exact absurd hlt (Nat.lt_irrefl _)
    · exact ⟨hq, hel, hlt⟩
  · rintro ⟨hq, hel, hlt⟩
    exact ⟨hq, Or.inr hel, hlt⟩

/-- With the waiting player dealt in, the big blind is the third of the order, heads-up the second. -/
theorem Ring.prospectiveBigBlind_iff (hr : t.Ring) (hw : t.waits c = true) (hcount : 1 ≤ t.eligibleCount) :
    t.prospectiveBigBlind c = some c ↔ t.before c = min 2 t.eligibleCount := by
  have hs := hr.lastDealer_lt
  have hc := hr.waits_inside hw
  have hlength := hr.prospective_count hw
  have hplayers : (t.seats.occupied.filter fun x => t.prospective c x.1).length = t.eligibleCount + 1 := by
    have hseated : ∀ q, t.prospective c q = true → (t.seats.seat q).isSome = true := by
      intro q hq
      rcases (prospective_iff hw).mp hq with rfl | hel
      · obtain ⟨st, hst, _⟩ := waits_iff.mp hw
        rw [hst]
        rfl
      · obtain ⟨st, hst, _⟩ := TableSeats.eligible_iff.mp hel
        rw [hst]
        rfl
    rw [t.seats.length_occupied_filter _ hseated, hr.size, hlength]
  rw [← seatsBefore_prospective hw]
  have hfc : t.prospective c c = true := (prospective_iff hw).mpr (Or.inl rfl)
  obtain ⟨button, second, hbutton, hsecond, hsin, hfs, hone, hthird⟩ := first_three hs (f := t.prospective c) (by omega)
  have hdealer := (hr.first_button (f := t.prospective c) (by omega)).trans hbutton
  have hbigBlind : t.prospectiveBigBlind c = some (if t.eligibleCount + 1 = 2 then second
      else (t.tableSize.nextEligible second (t.prospective c)).getD button) := by
    have hfew : ¬ t.eligibleCount + 1 < 2 := by omega
    unfold prospectiveBigBlind
    simp only [hplayers, if_neg hfew]
    cases hlast : t.lastButton with
    | none =>
      rw [hlast] at hdealer
      simp only [hdealer, Option.map_some, hsecond, Option.getD_some]
    | some last =>
      rw [hlast] at hdealer
      simp only [hdealer, Option.map_some, hsecond, Option.getD_some]
  rw [hbigBlind, Option.some.injEq]
  by_cases htwo : t.eligibleCount + 1 = 2
  · rw [if_pos htwo, show min 2 t.eligibleCount = 1 by omega]
    constructor
    · rintro rfl
      exact hone
    · exact fun h => before_inj hs hsin hc hfs hfc (hone.trans h.symm)
  · obtain ⟨third, hnext, htin, hft, hbefore⟩ := hthird (by omega)
    rw [if_neg htwo, hnext, Option.getD_some, show min 2 t.eligibleCount = 2 by omega]
    constructor
    · rintro rfl
      exact hbefore
    · exact fun h => before_inj hs htin hc hft hfc (hbefore.trans h.symm)

/-- The promoted player is the one who comes. -/
theorem Ring.promoted_eq (hr : t.Ring) (hcount : 1 ≤ t.eligibleCount) : t.promoted = t.comer := by
  unfold promoted comer
  have hsame : ∀ p ∈ t.waiters, (decide (t.prospectiveBigBlind p = some p)) = decide (t.before p = min 2 t.eligibleCount) := by
    intro p hp
    exact decide_eq_decide.mpr (hr.prospectiveBigBlind_iff (mem_waiters.mp hp) hcount)
  generalize t.waiters = l at hsame
  induction l with
  | nil => rfl
  | cons p l ih =>
    rw [List.find?_cons, List.find?_cons, hsame p List.mem_cons_self, ih fun q hq => hsame q (List.mem_cons_of_mem _ hq)]

theorem comer_waits (h : t.comer = some c) : t.waits c = true ∧ t.before c = min 2 t.eligibleCount :=
  ⟨mem_waiters.mp (List.mem_of_find?_eq_some h), by simpa using List.find?_some h⟩

theorem comer_none (h : t.comer = none) (hp : t.waits p = true) : t.before p ≠ min 2 t.eligibleCount := by
  have hout := List.find?_eq_none.mp h p (mem_waiters.mpr hp)
  simpa using hout

/-- The waiting seats in order. -/
theorem sorted_waiters (t : TableLifecycle) : t.waiters.Pairwise (· < ·) := by
  have hseats : t.seats.tableSize.seats.Pairwise (· < ·) := by
    refine List.pairwise_map.mpr ((List.pairwise_lt_finRange _).imp fun h => ?_)
    exact h
  have hkeys : t.waiters.Sublist t.seats.tableSize.seats := by
    refine (List.filter_sublist.map _).trans ?_
    unfold TableSeats.occupied
    induction t.seats.tableSize.seats with
    | nil => exact .slnil
    | cons p l ih =>
      rw [List.filterMap_cons]
      cases t.seats.seat p with
      | none => exact ih.cons p
      | some st => exact ih.cons_cons p
  exact hseats.sublist hkeys

/-- No player in a lower seat could come as well. -/
theorem comer_lowest (h : t.comer = some c) (hp : t.waits p = true) (hbefore : t.before p = min 2 t.eligibleCount) : c ≤ p := by
  obtain ⟨_, front, rest, hsplit, hout⟩ := List.find?_eq_some_iff_append.mp h
  have hsorted := t.sorted_waiters
  have hmem := mem_waiters.mpr hp
  rw [hsplit] at hsorted hmem
  rcases List.mem_append.mp hmem with hfront | hrest
  · have hnot := hout p hfront
    simp [hbefore] at hnot
  · rcases List.mem_cons.mp hrest with rfl | hrest
    · exact le_refl _
    · exact le_of_lt ((List.pairwise_cons.mp (List.pairwise_append.mp hsorted).2.1).1 p hrest)

/-- Of two eligible seats one had the button: nobody has both before them. -/
theorem Ring.comer_heads_up (hr : t.Ring) {last : SeatId} (hlast : t.lastButton = some last)
    (hel : t.seats.eligible last = true) (htwo : t.eligibleCount = 2) : t.comer = none := by
  cases h : t.comer with
  | none => rfl
  | some c =>
    obtain ⟨hw, hbefore⟩ := comer_waits h
    have hs := hr.lastDealer_lt
    have hdealer : t.lastDealer = last := by rw [lastDealer, hlast, Option.getD_some]
    have hcount := htwo
    rw [eligibleCount, TableSeats.eligibleCount_eq, hr.size] at hcount
    have hsub : seatsBefore t.tableSize t.lastDealer t.seats.eligible c ⊆
        (t.tableSize.seats.filter t.seats.eligible).toFinset.erase last := by
      intro q hq
      obtain ⟨hq, hqe, hlt⟩ := mem_seatsBefore.mp hq
      refine Finset.mem_erase.mpr ⟨?_, List.mem_toFinset.mpr (List.mem_filter.mpr ⟨t.tableSize.mem_seats.mpr hq, hqe⟩)⟩
      rintro rfl
      have hfar : clockwiseAwardKey t.tableSize q q = t.tableSize.get := by
        rw [key_eq_gap, Clockwise.gap, Nat.add_sub_cancel_left, Nat.mod_self, if_pos rfl]
      have hnear := (seatWrapped_key hs (hr.waits_inside hw)).2.2
      rw [hdealer] at hlt hnear
      omega
    have hle := Finset.card_le_card hsub
    rw [Finset.card_erase_of_mem (List.mem_toFinset.mpr (List.mem_filter.mpr
        ⟨t.tableSize.mem_seats.mpr (hr.eligible_inside hel), hel⟩)),
      List.toFinset_card_of_nodup (t.tableSize.nodup_seats.filter _), hcount] at hle
    rw [before, htwo] at hbefore
    omega

/-- With three seats dealt in, two are before the big blind. -/
theorem Ring.bigBlind_before (hr : t.Ring) {positions : HandPositions} (hcount : 3 ≤ t.eligibleCount)
    (h : t.seats.positions t.handStart.button = .ok positions) : t.before positions.bigBlind = 2 := by
  have hs := hr.lastDealer_lt
  obtain ⟨hnext, hel, _⟩ := hr.beginHand_positions (by omega)
  obtain ⟨_, _, hblinds⟩ := TableSeats.positions_spec hel (by exact Nat.le_of_succ_le hcount) h
  have hmany : ¬ t.seats.eligibleCount = 2 := by
    have : 3 ≤ t.seats.eligibleCount := hcount
    omega
  rw [if_neg hmany, TableSeats.nextForHand, TableSeats.nextForHand, hr.size] at hblinds
  have hlength : (t.tableSize.seats.filter t.seats.eligible).length = t.eligibleCount := by
    rw [eligibleCount, TableSeats.eligibleCount_eq, hr.size]
  obtain ⟨button, second, hbutton, hsecond, _, _, _, hthird⟩ := first_three hs (f := t.seats.eligible) (by omega)
  obtain ⟨third, hnextThird, _, _, htwo⟩ := hthird (by omega)
  have hfirst : t.handStart.button = button := by
    have hdealer := (hr.first_button (f := t.seats.eligible) (by omega)).trans hbutton
    rw [nextButton] at hnext
    cases hlast : t.lastButton with
    | none =>
      rw [hlast] at hdealer hnext
      exact Option.some.inj (hnext.symm.trans hdealer)
    | some last =>
      rw [hlast] at hdealer hnext
      rw [← hr.size] at hdealer
      exact Option.some.inj (hnext.symm.trans hdealer)
  rw [hfirst, hsecond, Option.some.injEq] at hblinds
  rw [← hblinds.1, hnextThird, Option.some.injEq] at hblinds
  rw [← hblinds.2]
  exact htwo

end TableLifecycle

end OpenFelt
