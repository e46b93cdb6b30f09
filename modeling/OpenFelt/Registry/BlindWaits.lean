/-
  OpenFelt.Registry.BlindWaits — who waits for the big blind, and for how long.

  Once three seats are dealt in, the waiting players promoted are those between the last
  big blind and the next eligible seat: the ring of `Rotation`, the big blind being the
  turn. After a hand dealt to two seats nobody is promoted any more.
-/

import OpenFelt.Game.BlindOrder
import OpenFelt.Registry.RosterRuns

namespace OpenFelt

namespace TableLifecycle

/-- A hand is begun and ended, and nobody goes bust. -/
def PlaysHand (t : TableLifecycle) (start : HandStart) (t' : TableLifecycle) : Prop :=
  ∃ finalStacks, t.beginHand.1 = .ok start ∧ (∀ x ∈ finalStacks, 0 < x.2) ∧
    t.beginHand.2.completeHand finalStacks = (.ok (), t')

/-- Hands in a row, with no other call between them. -/
inductive PlaysHands : TableLifecycle → List HandStart → TableLifecycle → Prop
  | none (t : TableLifecycle) : PlaysHands t [] t
  | next {t t' t'' : TableLifecycle} {start : HandStart} {starts : List HandStart} :
      PlaysHand t start t' → PlaysHands t' starts t'' → PlaysHands t (start :: starts) t''

/-- Every waiting player is dealt in within as many hands as there are seats, and each of these hands can be played. -/
structure BoundedWait (t : TableLifecycle) : Prop where
  plays : ∀ starts t', PlaysHands t starts t' → starts.length < t.tableSize.get → ∃ start t'', PlaysHand t' start t''
  dealt : ∀ starts t', PlaysHands t starts t' → starts.length = t.tableSize.get → ∀ p, t.waits p = true →
    ∃ start ∈ starts, p ∈ start.seatStacks.map (·.1)

/-- The seats in the order of the hands: `turn` had the last big blind. -/
def ring (t : TableLifecycle) (turn : SeatId) : Rotation.Ring where
  seated := (Finset.univ.filter fun p : SeatId => t.seats.eligible p = true).map Fin.valEmbedding
  waiting := (Finset.univ.filter fun p : SeatId => t.waits p = true).map Fin.valEmbedding
  turn := turn.val

/-- The ring once the next hand is dealt, to three seats or more. -/
def ringAfter (t : TableLifecycle) : Rotation.Ring :=
  match t.comer with
  | some c => ⟨insert c.val (t.ring c).seated, (t.ring c).waiting.erase c.val, c.val⟩
  | none => t.ring ((t.tableSize.seats.find? fun p => t.seats.eligible p && t.before p = 2).getD t.lastDealer)

/-- The seats dealt in or waiting. -/
def inPlay (t : TableLifecycle) : List SeatId := t.tableSize.seats.filter fun p => t.seats.eligible p || t.waits p

def chipsInPlay (t : TableLifecycle) : Nat := (t.inPlay.map t.chipsAt).sum

/-- The waiting players come in in time. -/
structure InTime (t : TableLifecycle) : Prop where
  idle : t.activeHand = none
  isOpen : t.state ≠ .closed
  chips : ∀ p st, t.seats.seat p = some st → t.waits p = true → 0 < st.stack
  fits : t.chipsInPlay ≤ u32Max
  /-- Three seats or more are eligible, or a player comes at once who makes them three or who waits alone. -/
  enough : 3 ≤ t.eligibleCount ∨ ∃ c, t.comer = some c ∧ (t.eligibleCount = 2 ∨ ∀ p, t.waits p = true → p = c)
  /-- Players who wait past the last seat of the ring may have to wait for another round. -/
  round : t.ringAfter.Crosses → t.ringAfter.above.card + t.ringAfter.players.card < t.tableSize.get

/-! ## One hand -/

/-- A table between two hands. -/
structure Between (t : TableLifecycle) : Prop where
  ring : t.Ring
  idle : t.activeHand = none
  isOpen : t.state ≠ .closed
  pending : t.pending = .empty

section hand
variable {t t' : TableLifecycle} {start : HandStart} {finalStacks : List (SeatId × Nat)} {p : SeatId}

/-- What a hand leaves: the seats of the promotion, with new stacks. -/
structure Left (t : TableLifecycle) (start : HandStart) (t' : TableLifecycle) : Prop where
  between : t'.Between
  tableSize : t'.tableSize = t.tableSize
  button : t'.lastButton = some start.button
  eligible : ∀ p, t'.seats.eligible p = t.promoteNaturalBigBlindWaiter.seats.eligible p
  waits : ∀ p, t'.waits p = t.promoteNaturalBigBlindWaiter.waits p
  undealt : ∀ p, ¬ t.promoteNaturalBigBlindWaiter.seats.eligible p = true →
    t'.seats.seat p = t.promoteNaturalBigBlindWaiter.seats.seat p

theorem applyPending_none (h : t.pending = .empty) : t.applyPending = { t with pending := .empty } := by
  rw [applyPending, h]
  rfl

/-- What ends between hands with nothing pending. -/
theorem settles (hpending : t.pending = .empty) (hidle : t.activeHand = none) (hopen : t.state ≠ .closed) :
    t.applyPending.refreshBetweenHandState.activeHand = none ∧ t.applyPending.refreshBetweenHandState.state ≠ .closed ∧
      t.applyPending.refreshBetweenHandState.pending = .empty ∧
      t.applyPending.refreshBetweenHandState.tableSize = t.tableSize ∧
      t.applyPending.refreshBetweenHandState.lastButton = t.lastButton ∧
      t.applyPending.refreshBetweenHandState.seats = t.seats := by
  have hopen' : ({ t with pending := .empty } : TableLifecycle).refreshBetweenHandState.state ≠ .closed := refresh_open hopen
  rw [applyPending_none hpending]
  refine ⟨?_, hopen', ?_, ?_, ?_, ?_⟩ <;> rw [refresh_frame]
  exact hidle

/-- A hand that ends with nothing pending changes the stacks of its seats. -/
theorem completeHand_left (hpending : t.pending = .empty) (hopen : t.state ≠ .closed)
    (h : t.completeHand finalStacks = (.ok (), t')) :
    t.Takes finalStacks ∧ t'.activeHand = none ∧ t'.state ≠ .closed ∧ t'.pending = .empty ∧ t'.tableSize = t.tableSize ∧
      t'.lastButton = t.lastButton ∧ ∀ q, t'.seats.seat q = (finalStacks.lookup q).elim (t.seats.seat q)
        fun stack => (t.seats.seat q).map (settleSeat stack) := by
  rcases completeHand_cases t finalStacks with ⟨_, he⟩ | ⟨_, actual, _, htakes, hactual, he⟩
  · rw [he] at h
    cases h
  · rw [he] at h
    cases h
    have hseat := (TableSeats.seat_foldl_modify settleSeat (fun _ _ => rfl) actual.entries OrdMap.nodup_keys t.seats).2
    obtain ⟨h1, h2, h3, h4, h5, h6⟩ := @settles { t with
      seats := actual.entries.foldl (fun seats (x : SeatId × Nat) => seats.modify x.1 (settleSeat x.2) fun _ => rfl) t.seats
      activeHand := none } hpending rfl hopen
    refine ⟨htakes, h1, h2, h3, h4, h5, fun q => ?_⟩
    refine (congrArg (TableSeats.seat · q) h6).trans ((hseat q).trans ?_)
    rw [show actual.entries.lookup q = finalStacks.lookup q from hactual q]
    cases finalStacks.lookup q <;> rfl

/-- The stacks a hand ends with, seat by seat. -/
theorem PlaysHand.seat (hb : t.Between) (hp : PlaysHand t start t') : ∃ finalStacks : List (SeatId × Nat),
    t.promoteNaturalBigBlindWaiter.dealHand.Takes finalStacks ∧ (∀ q stack, finalStacks.lookup q = some stack → 0 < stack) ∧
    (∀ q, (finalStacks.lookup q).isSome = t.promoteNaturalBigBlindWaiter.seats.eligible q) ∧
    (∀ q, t'.seats.seat q = (finalStacks.lookup q).elim (t.promoteNaturalBigBlindWaiter.seats.seat q)
      fun stack => (t.promoteNaturalBigBlindWaiter.seats.seat q).map fun st => settleSeat stack (dealIn st)) ∧
    t'.Between ∧ t'.tableSize = t.tableSize ∧ t'.lastButton = some start.button := by
  obtain ⟨finalStacks, hbegin, hpositive, hcomplete⟩ := hp
  obtain ⟨hcount, rfl, hdealt⟩ := beginHand_started hbegin
  have hring : t'.Ring := by
    have hstep := (hb.ring.step .beginHand).step (.completeHand finalStacks)
    rwa [LifecycleOp.apply, LifecycleOp.apply, hcomplete] at hstep
  have hpending : t.promoteNaturalBigBlindWaiter.dealHand.pending = .empty := by
    rw [dealHand, promote_frame]
    exact hb.pending
  have hsize : t.promoteNaturalBigBlindWaiter.dealHand.tableSize = t.tableSize := by
    rw [dealHand, promote_frame]
  rw [hdealt] at hcomplete
  obtain ⟨htakes, hidle, hopen, hnone, hsame, hbutton, hseat⟩ := completeHand_left hpending (fun h => by cases h) hcomplete
  obtain ⟨other, hother, hnodup, hseats, _⟩ := id htakes
  obtain rfl := Option.some.inj (hother.symm.trans (rfl : _ = some t.promoteNaturalBigBlindWaiter.handStart))
  have hmembers : ∀ q, (finalStacks.lookup q).isSome = t.promoteNaturalBigBlindWaiter.seats.eligible q := by
    intro q
    have hsame : q ∈ finalStacks.map (·.1) ↔ t.promoteNaturalBigBlindWaiter.seats.eligible q = true :=
      (hseats q).trans mem_dealtStacks
    rw [Bool.eq_iff_iff, ← hsame, List.lookup_isSome_iff, List.mem_map]
    exact exists_congr fun e => and_congr_right fun _ => by rw [beq_iff_eq, eq_comm]
  refine ⟨finalStacks, htakes, fun q stack hl => hpositive (q, stack) ((OrdMap.mem_lookup hnodup).mp hl), hmembers,
    fun q => ?_, ⟨hring, hidle, hopen, hnone⟩, hsame.trans hsize, hbutton⟩
  rw [hseat q, seat_dealHand, ← hmembers q]
  cases finalStacks.lookup q with
  | some stack =>
    simp only [Option.isSome_some, if_true, Option.map_map]
    rfl
  | none => rfl

theorem PlaysHand.left (hb : t.Between) (hp : PlaysHand t start t') : Left t start t' := by
  obtain ⟨finalStacks, _, hpositive, hmembers, hseat, hbetween, hsize, hbutton⟩ := hp.seat hb
  refine ⟨hbetween, hsize, hbutton, fun q => ?_, fun q => ?_, fun q hq => ?_⟩
  · rw [TableSeats.eligible, hseat]
    have hdealt := hmembers q
    cases hl : finalStacks.lookup q with
    | none => rfl
    | some stack =>
      have hpos := hpositive q stack hl
      rw [hl] at hdealt
      obtain ⟨st, hst, hel⟩ := TableSeats.eligible_iff.mp hdealt.symm
      simp only [SeatState.eligibleForNextHand, Bool.and_eq_true, decide_eq_true_eq] at hel
      rw [← hdealt, hst]
      simp [SeatState.eligibleForNextHand, settleSeat, dealIn, hpos, hel.2]
  · rw [waits, hseat, waits]
    cases finalStacks.lookup q with
    | none => rfl
    | some stack => cases t.promoteNaturalBigBlindWaiter.seats.seat q <;> rfl
  · have hundealt : finalStacks.lookup q = none := by
      have hdealt := hmembers q
      rw [Bool.eq_false_iff.mpr hq] at hdealt
      simpa using hdealt
    rw [hseat, hundealt, Option.elim_none]

/-! ## Who is let in -/

/-- Every waiting player has chips. -/
def Funded (t : TableLifecycle) : Prop := ∀ p st, t.seats.seat p = some st → t.waits p = true → 0 < st.stack

/-- The promotion seats the player it picks. -/
theorem promote_seats (hf : t.Funded) (h : t.promoted = some p) : t.waits p = true ∧
    (∀ q, t.promoteNaturalBigBlindWaiter.seats.eligible q = (t.seats.eligible q || q = p)) ∧
      ∀ q, t.promoteNaturalBigBlindWaiter.waits q = (t.waits q && q ≠ p) := by
  obtain ⟨_, st, hst, hwaits⟩ := promoted_waits h
  have hp : t.waits p = true := waits_iff.mpr ⟨st, hst, hwaits⟩
  refine ⟨hp, fun q => ?_, fun q => ?_⟩
  · rw [promoted_eligible h hst (hf p st hst hp), prospective]
    by_cases hq : q = p
    · simp [hq, hst]
    · simp [hq]
  · rw [promote_some h, waits, waits]
    simp only [modifySeat, TableSeats.seat_modify]
    by_cases hq : q = p
    · subst hq
      simp [hst, promotion]
    · simp [hq]

/-- The same players are dealt in or wait. -/
theorem promote_inPlay (hf : t.Funded) (q : SeatId) :
    (t.promoteNaturalBigBlindWaiter.seats.eligible q || t.promoteNaturalBigBlindWaiter.waits q) =
      (t.seats.eligible q || t.waits q) := by
  cases h : t.promoted with
  | none => rw [promote_none h]
  | some p =>
    obtain ⟨hp, heligible, hwaits⟩ := promote_seats hf h
    rw [heligible, hwaits]
    by_cases hq : q = p
    · simp [hq, hp]
    · simp [hq]

theorem Left.funded (hf : t.Funded) (hl : Left t start t') : t'.Funded := by
  intro q st hst hwaits
  rw [hl.waits] at hwaits
  have hout : ¬ t.promoteNaturalBigBlindWaiter.seats.eligible q = true := by
    rw [waits_ineligible hwaits]
    exact Bool.false_ne_true
  rw [hl.undealt q hout] at hst
  cases h : t.promoted with
  | none =>
    rw [promote_none h] at hst hwaits
    exact hf q st hst hwaits
  | some p =>
    obtain ⟨_, _, hkept⟩ := promote_seats hf h
    rw [hkept, Bool.and_eq_true] at hwaits
    have hne : q ≠ p := by simpa using hwaits.2
    rw [promote_some h] at hst
    simp only [modifySeat, TableSeats.seat_modify, if_neg hne] at hst
    exact hf q st hst hwaits.1

/-! ## The chips in play -/

theorem chipsAt_promote (t : TableLifecycle) : t.promoteNaturalBigBlindWaiter.chipsAt = t.chipsAt := by
  funext q
  rw [chipsAt, held_promote, chipsAt]

theorem lookup_dealtStacks_chips (h : t.seats.eligible p = true) : t.dealtStacks.lookup p = some (t.chipsAt p) := by
  have hlookup := t.seats.lookup_occupied (·.eligibleForNextHand) (·.stack) p
  obtain ⟨st, hst, hel⟩ := TableSeats.eligible_iff.mp h
  rw [show t.dealtStacks.lookup p = _ from hlookup, chipsAt, held, hst, Option.filter_some, if_pos hel]
  rfl

/-- What a hand deals is what its seats hold. -/
theorem dealtStacks_sum (hr : t.Ring) :
    (t.dealtStacks.map (·.2)).sum = ((t.tableSize.seats.filter t.seats.eligible).map t.chipsAt).sum := by
  have hmembers : ∀ e ∈ t.dealtStacks, e.1 ∈ t.tableSize.seats.filter t.seats.eligible := by
    intro e he
    have heligible := mem_dealtStacks.mp (List.mem_map_of_mem (f := (·.1)) he)
    exact List.mem_filter.mpr ⟨hr.size ▸ TableSeats.mem_seats_of_eligible heligible, heligible⟩
  rw [← Ledger.sum_credited (t.tableSize.nodup_seats.filter _) hmembers]
  refine congrArg List.sum (List.map_congr_left fun p hp => ?_)
  rw [Ledger.credited_eq_lookup t.nodup_dealtStacks, lookup_dealtStacks_chips (List.mem_filter.mp hp).2]
  rfl

/-- A hand deals no more than is in play. -/
theorem dealt_le (hr : t.Ring) (hf : t.Funded) :
    (t.promoteNaturalBigBlindWaiter.dealtStacks.map (·.2)).sum ≤ t.chipsInPlay := by
  have htable : t.promoteNaturalBigBlindWaiter.tableSize = t.tableSize := by rw [promote_frame]
  rw [dealtStacks_sum hr.promote, chipsAt_promote, htable, chipsInPlay, inPlay]
  refine List.Sublist.sum_le_sum ((List.monotone_filter_right _ fun q hq => ?_).map _) fun _ _ => Nat.zero_le _
  rw [← promote_inPlay hf q, hq, Bool.true_or]

/-- When nobody is left waiting, a hand deals all that is in play. -/
theorem dealt_all (hr : t.Ring) (hf : t.Funded) (hnone : ∀ q, t.promoteNaturalBigBlindWaiter.waits q = false) :
    (t.promoteNaturalBigBlindWaiter.dealtStacks.map (·.2)).sum = t.chipsInPlay := by
  have htable : t.promoteNaturalBigBlindWaiter.tableSize = t.tableSize := by rw [promote_frame]
  rw [dealtStacks_sum hr.promote, chipsAt_promote, htable, chipsInPlay, inPlay]
  congr 3
  funext q
  rw [← promote_inPlay hf q, hnone, Bool.or_false]

/-- Chips in play stay in play. -/
theorem PlaysHand.chips (hb : t.Between) (hf : t.Funded) (hp : PlaysHand t start t') : t'.chipsInPlay = t.chipsInPlay := by
  have hleft := hp.left hb
  obtain ⟨finalStacks, htakes, _, hmembers, hseat, _⟩ := hp.seat hb
  have hsame : t'.inPlay = t.inPlay := by
    rw [inPlay, inPlay, hleft.tableSize]
    refine List.filter_congr fun q _ => ?_
    rw [hleft.eligible, hleft.waits, promote_inPlay hf]
  obtain ⟨begun, hbegun, hperm, htotal, _⟩ := (takes_iff (dealHand_dealtIn _)).mp htakes
  obtain rfl : t.promoteNaturalBigBlindWaiter.handStart = begun := Option.some.inj hbegun
  have hnodup : (finalStacks.map (·.1)).Nodup := hperm.nodup_iff.mpr (nodup_dealtStacks _)
  have hpaid : ∀ q, t'.chipsAt q + Ledger.credited t.promoteNaturalBigBlindWaiter.dealtStacks q =
      t.chipsAt q + Ledger.credited finalStacks q := by
    intro q
    have hkept : t.chipsAt q = t.promoteNaturalBigBlindWaiter.chipsAt q := congrFun (chipsAt_promote t).symm q
    rw [Ledger.credited_eq_lookup (nodup_dealtStacks _), Ledger.credited_eq_lookup hnodup, hkept]
    have hdealt := hmembers q
    have hheld := hseat q
    cases hl : finalStacks.lookup q with
    | some stack =>
      rw [hl] at hdealt hheld
      obtain ⟨st, hst, _⟩ := TableSeats.eligible_iff.mp hdealt.symm
      rw [hst] at hheld
      have hgot : t'.chipsAt q = stack := by
        rw [chipsAt, held, hheld]
        rfl
      rw [lookup_dealtStacks_chips hdealt.symm, hgot]
      exact Nat.add_comm _ _
    | none =>
      rw [hl] at hdealt hheld
      have hundealt : t.promoteNaturalBigBlindWaiter.dealtStacks.lookup q = none := by
        have hsome := t.promoteNaturalBigBlindWaiter.lookup_dealtStacks q
        rw [← hdealt] at hsome
        simpa using hsome
      have hsame : t'.chipsAt q = t.promoteNaturalBigBlindWaiter.chipsAt q := by
        rw [chipsAt, held, hheld]
        rfl
      rw [hundealt, hsame]
  have hinside : ∀ q, t.promoteNaturalBigBlindWaiter.seats.eligible q = true → q ∈ t.inPlay := by
    intro q hq
    have hin := TableSeats.mem_seats_of_eligible hq
    rw [hb.ring.promote.size, promote_frame] at hin
    exact List.mem_filter.mpr ⟨hin, by rw [← promote_inPlay hf, hq, Bool.true_or]⟩
  have hdealtIn : ∀ e ∈ t.promoteNaturalBigBlindWaiter.dealtStacks, e.1 ∈ t.inPlay :=
    fun e he => hinside e.1 (mem_dealtStacks.mp (List.mem_map_of_mem he))
  have hpaidIn : ∀ e ∈ finalStacks, e.1 ∈ t.inPlay :=
    fun e he => hinside e.1 (mem_dealtStacks.mp (hperm.mem_iff.mp (List.mem_map_of_mem he)))
  have hn : t.inPlay.Nodup := t.tableSize.nodup_seats.filter _
  have hsum := congrArg List.sum (List.map_congr_left fun q (_ : q ∈ t.inPlay) => hpaid q)
  rw [List.sum_map_add, List.sum_map_add, Ledger.sum_credited hn hdealtIn, Ledger.sum_credited hn hpaidIn, htotal] at hsum
  rw [chipsInPlay, hsame, chipsInPlay]
  exact Nat.add_right_cancel hsum

/-- A table with two players dealt in plays its hand. -/
theorem plays_hand (hb : t.Between) (hcount : 2 ≤ t.promoteNaturalBigBlindWaiter.eligibleCount)
    (hfits : (t.promoteNaturalBigBlindWaiter.dealtStacks.map (·.2)).sum ≤ u32Max) : ∃ start t', PlaysHand t start t' := by
  rcases t.beginHand_cases with ⟨hbusy | hclosed, _⟩ | ⟨_, _, ⟨hfew, _⟩ | ⟨_, he⟩⟩
  · rw [handActive, hb.idle] at hbusy
    cases hbusy
  · exact absurd hclosed hb.isOpen
  · omega
  have htakes : t.beginHand.2.Takes t.promoteNaturalBigBlindWaiter.dealtStacks := by
    rw [he]
    exact (takes_iff (dealHand_dealtIn _)).mpr ⟨_, rfl, .refl _, rfl, hfits⟩
  refine ⟨_, (t.beginHand.2.completeHand t.promoteNaturalBigBlindWaiter.dealtStacks).2,
    t.promoteNaturalBigBlindWaiter.dealtStacks, congrArg Prod.fst he,
      fun x hx => ?_, Prod.ext (completeHand_ok_iff.mpr htakes) rfl⟩
  obtain ⟨⟨q, st⟩, hmem, rfl⟩ := List.mem_map.mp hx
  have hel := (List.mem_filter.mp hmem).2
  simp only [SeatState.eligibleForNextHand, Bool.and_eq_true, decide_eq_true_eq] at hel
  exact hel.1

/-! ## The ring -/

variable {turn button small c q : SeatId}

theorem mem_ring_seated {x : Nat} : x ∈ (t.ring turn).seated ↔ ∃ p : SeatId, t.seats.eligible p = true ∧ p.val = x := by
  simp [ring]

theorem mem_ring_waiting {x : Nat} : x ∈ (t.ring turn).waiting ↔ ∃ p : SeatId, t.waits p = true ∧ p.val = x := by
  simp [ring]

theorem ring_congr (heligible : ∀ p, t'.seats.eligible p = t.seats.eligible p) (hwaits : ∀ p, t'.waits p = t.waits p) :
    t'.ring turn = t.ring turn := by
  unfold ring
  simp only [heligible, hwaits]

theorem Ring.ring_valid (hr : t.Ring) (hturn : t.seats.eligible turn = true) : (t.ring turn).Valid t.tableSize.get where
  inside := by
    intro x hx
    rcases Finset.mem_union.mp hx with hx | hx
    · obtain ⟨p, hp, rfl⟩ := mem_ring_seated.mp hx
      exact hr.eligible_inside hp
    · obtain ⟨p, hp, rfl⟩ := mem_ring_waiting.mp hx
      exact hr.waits_inside hp
  apart := by
    rw [Finset.disjoint_left]
    intro x hx hw
    obtain ⟨p, hp, rfl⟩ := mem_ring_seated.mp hx
    obtain ⟨q, hq, he⟩ := mem_ring_waiting.mp hw
    rw [Fin.ext he] at hq
    rw [waits_ineligible hq] at hp
    cases hp
  turn := mem_ring_seated.mpr ⟨turn, hturn, rfl⟩

/-- A table after a hand dealt to three seats or more: `turn` had its big blind. -/
structure Follows (t : TableLifecycle) (turn : SeatId) : Prop where
  between : t.Between
  count : 3 ≤ t.eligibleCount
  last : ∃ button small, t.lastButton = some button ∧ t.seats.eligible button = true ∧
    t.seats.nextForHand button = some small ∧ t.seats.nextForHand small = some turn

/-- One seat is before the last big blind, and the next one has two before it. -/
theorem Follows.order (h : t.Follows turn) : t.seats.eligible turn = true ∧ t.before turn = 1 ∧
    ∃ third, t.seats.nextForHand turn = some third ∧ t.seats.eligible third = true ∧ t.before third = 2 := by
  have hr := h.between.ring
  have hcount := h.count
  obtain ⟨button, small, hlast, _, hsmall, hturn⟩ := h.last
  have hdealer : t.lastDealer = button := by rw [lastDealer, hlast, Option.getD_some]
  rw [eligibleCount, TableSeats.eligibleCount_eq, hr.size] at hcount
  obtain ⟨a, b, ha, hb, _, hbe, hone, hthird⟩ := first_three hr.lastDealer_lt (f := t.seats.eligible) (by omega)
  obtain ⟨third, hnext, _, hel, htwo⟩ := hthird hcount
  simp only [TableSeats.nextForHand, hr.size] at hsmall hturn ⊢
  rw [hdealer, find_turn (hdealer ▸ hr.lastDealer_lt) hsmall, Option.some.injEq] at ha
  subst ha
  rw [hturn, Option.some.injEq] at hb
  subst hb
  exact ⟨hbe, hone, third, hnext, hel, htwo⟩

/-- After a hand those come who wait between the big blind and the next eligible seat. -/
theorem Follows.coming_iff (h : t.Follows turn) (hw : t.waits c = true) :
    c.val ∈ (t.ring turn).coming t.tableSize.get ↔ t.before c = 2 := by
  have hr := h.between.ring
  have hs := hr.lastDealer_lt
  obtain ⟨hturn, hone, third, _, hthird, htwo'⟩ := h.order
  obtain ⟨button, small, hlast, hbutton, _⟩ := h.last
  have hdealer : t.lastDealer = button := by rw [lastDealer, hlast, Option.getD_some]
  have hc := hr.waits_inside hw
  have ht := hr.eligible_inside hturn
  have hneC : ∀ e : SeatId, t.seats.eligible e = true →
      clockwiseAwardKey t.tableSize t.lastDealer e ≠ clockwiseAwardKey t.tableSize t.lastDealer c := by
    intro e he heq
    rw [clockwiseAwardKey_inj hs (hr.eligible_inside he) hc heq, waits_ineligible hw] at he
    cases he
  have hout : turn ∉ seatsBefore t.tableSize t.lastDealer t.seats.eligible turn := by
    rw [mem_seatsBefore]
    exact fun hlt => Nat.lt_irrefl _ hlt.2.2
  have hcard : (insert turn (seatsBefore t.tableSize t.lastDealer t.seats.eligible turn)).card = 2 := by
    rw [Finset.card_insert_of_notMem hout]
    exact congrArg (· + 1) hone
  have hkey : ∀ x : SeatId, x.val < t.tableSize.get → Rotation.Ring.turn (t.ring turn) = turn.val ∧
      Clockwise.gap t.tableSize.get turn.val x.val =
      if clockwiseAwardKey t.tableSize t.lastDealer turn < clockwiseAwardKey t.tableSize t.lastDealer x then
        clockwiseAwardKey t.tableSize t.lastDealer x - clockwiseAwardKey t.tableSize t.lastDealer turn
      else clockwiseAwardKey t.tableSize t.lastDealer x + t.tableSize.get - clockwiseAwardKey t.tableSize t.lastDealer turn :=
    fun x hx => ⟨rfl, key_from hs ht hx⟩
  have hless : ∀ x : SeatId, clockwiseAwardKey t.tableSize t.lastDealer x ≤ clockwiseAwardKey t.tableSize t.lastDealer turn →
      t.before x ≤ 1 := fun x hle => hone ▸ card_before_le hle
  have hcle := (seatWrapped_key hs hc).2
  have htle := (seatWrapped_key hs ht).2
  rw [Rotation.Ring.coming, Finset.mem_filter]
  constructor
  · rintro ⟨_, hnear⟩
    have hfar : clockwiseAwardKey t.tableSize t.lastDealer button = t.tableSize.get := by
      rw [hdealer, key_eq_gap, Clockwise.gap, Nat.add_sub_cancel_left, Nat.mod_self, if_pos rfl]
    have hshort : clockwiseAwardKey t.tableSize t.lastDealer turn < t.tableSize.get := by
      by_contra hnot
      have hle := (seatWrapped_key hs (hr.eligible_inside hthird)).2.2
      have := hless third (by omega)
      omega
    have hpassed : clockwiseAwardKey t.tableSize t.lastDealer turn < clockwiseAwardKey t.tableSize t.lastDealer c := by
      have hnear' := hnear button.val (mem_ring_seated.mpr ⟨button, hbutton, rfl⟩)
      rw [(hkey c hc).1, (hkey c hc).2, (hkey button (hr.eligible_inside hbutton)).2, hfar,
        if_pos hshort] at hnear'
      split at hnear' <;> omega
    rw [before, ← hcard]
    congr 1
    ext e
    rw [Finset.mem_insert, mem_seatsBefore, mem_seatsBefore]
    constructor
    · rintro ⟨hein, he, hlt⟩
      have hnear' := hnear e.val (mem_ring_seated.mpr ⟨e, he, rfl⟩)
      rw [(hkey c hc).1, (hkey c hc).2, (hkey e hein).2, if_pos hpassed] at hnear'
      by_cases heq : e = turn
      · exact Or.inl heq
      · have hne : clockwiseAwardKey t.tableSize t.lastDealer e ≠ clockwiseAwardKey t.tableSize t.lastDealer turn :=
          fun hk => heq (clockwiseAwardKey_inj hs hein ht hk)
        refine Or.inr ⟨hein, he, ?_⟩
        split at hnear' <;> omega
    · rintro (rfl | ⟨hein, he, hlt⟩)
      · exact ⟨ht, hturn, hpassed⟩
      · exact ⟨hein, he, by omega⟩
  · intro htwo
    have hpassed : clockwiseAwardKey t.tableSize t.lastDealer turn < clockwiseAwardKey t.tableSize t.lastDealer c := by
      by_contra hnot
      have hle := hless c (Nat.le_of_not_lt hnot)
      omega
    have hsame : insert turn (seatsBefore t.tableSize t.lastDealer t.seats.eligible turn) =
        seatsBefore t.tableSize t.lastDealer t.seats.eligible c := by
      refine Finset.eq_of_subset_of_card_le (fun e he => ?_) (by rw [hcard]; exact Nat.le_of_eq htwo)
      rcases Finset.mem_insert.mp he with rfl | he
      · exact mem_seatsBefore.mpr ⟨ht, hturn, hpassed⟩
      · obtain ⟨hein, he, hlt⟩ := mem_seatsBefore.mp he
        exact mem_seatsBefore.mpr ⟨hein, he, by omega⟩
    refine ⟨mem_ring_waiting.mpr ⟨c, hw, rfl⟩, fun x hx => ?_⟩
    obtain ⟨e, he, rfl⟩ := mem_ring_seated.mp hx
    have hein := hr.eligible_inside he
    have hele := (seatWrapped_key hs hein).2
    rw [(hkey c hc).1, (hkey c hc).2, (hkey e hein).2, if_pos hpassed]
    split
    · rename_i hlt
      have hnotBefore : ¬ clockwiseAwardKey t.tableSize t.lastDealer e < clockwiseAwardKey t.tableSize t.lastDealer c := by
        intro hbefore
        have hmem : e ∈ seatsBefore t.tableSize t.lastDealer t.seats.eligible c := mem_seatsBefore.mpr ⟨hein, he, hbefore⟩
        rw [← hsame] at hmem
        rcases Finset.mem_insert.mp hmem with rfl | hmem
        · exact Nat.lt_irrefl _ hlt
        · have := (mem_seatsBefore.mp hmem).2.2
          omega
      have := hneC e he
      omega
    · omega

/-! ## Hands on the ring -/

theorem Ring.third_found (hr : t.Ring) (hel : t.seats.eligible q = true) (htwo : t.before q = 2) :
    (t.tableSize.seats.find? fun p => t.seats.eligible p && t.before p = 2) = some q := by
  cases h : t.tableSize.seats.find? fun p => t.seats.eligible p && t.before p = 2 with
  | none =>
    have hout := List.find?_eq_none.mp h q (t.tableSize.mem_seats.mpr (hr.eligible_inside hel))
    simp [hel, htwo] at hout
  | some p =>
    have hp := List.find?_some h
    simp only [Bool.and_eq_true, decide_eq_true_eq] at hp
    exact congrArg some (before_inj hr.lastDealer_lt (hr.eligible_inside hp.1) (hr.eligible_inside hel) hp.1 hel
      (hp.2.trans htwo.symm))

/-- A hand dealt to three seats or more is a turn of the ring. -/
theorem Follows.ring_turn (h : t.Follows turn) : Rotation.Turn t.tableSize.get (t.ring turn) t.ringAfter := by
  have hr := h.between.ring
  have hcount := h.count
  have hmin : min 2 t.eligibleCount = 2 := by omega
  unfold ringAfter
  cases hcomer : t.comer with
  | some c =>
    obtain ⟨hw, hbefore⟩ := comer_waits hcomer
    refine .enters c.val ((h.coming_iff hw).mpr (hbefore.trans hmin)) fun d hd => ?_
    obtain ⟨p, hp, rfl⟩ := mem_ring_waiting.mp (Finset.mem_filter.mp hd).1
    exact comer_lowest hcomer hp (((h.coming_iff hp).mp hd).trans hmin.symm)
  | none =>
    obtain ⟨_, _, third, hnext, hel, htwo⟩ := h.order
    rw [hr.third_found hel htwo, Option.getD_some]
    have hnone : (t.ring turn).coming t.tableSize.get = ∅ := by
      rw [Finset.eq_empty_iff_forall_notMem]
      intro d hd
      obtain ⟨p, hp, rfl⟩ := mem_ring_waiting.mp (Finset.mem_filter.mp hd).1
      exact comer_none hcomer hp (((h.coming_iff hp).mp hd).trans hmin.symm)
    refine .passes third.val hnone (mem_ring_seated.mpr ⟨third, hel, rfl⟩) fun d hd => ?_
    obtain ⟨p, hp, rfl⟩ := mem_ring_seated.mp hd
    obtain ⟨hin, _, _, _, hnear⟩ := nextEligible_some hnext
    rw [hr.size] at hnear hin
    by_cases hpt : p = turn
    · subst hpt
      have hlast : Clockwise.gap t.tableSize.get p.val p.val = t.tableSize.get := by
        rw [Clockwise.gap, Nat.add_sub_cancel_left, Nat.mod_self, if_pos rfl]
      exact hlast.symm ▸ Clockwise.gap_le t.tableSize.pos
    · exact hnear p (hr.eligible_inside hp) hp hpt

/-- Whoever comes makes the hand one seat larger. -/
theorem promote_count (hr : t.Ring) (hf : t.Funded) (hcount : 1 ≤ t.eligibleCount) :
    t.promoteNaturalBigBlindWaiter.eligibleCount = t.eligibleCount + t.comer.toList.length := by
  cases hcomer : t.comer with
  | none => rw [promote_none ((hr.promoted_eq hcount).trans hcomer)]; rfl
  | some c =>
    have hpromoted := (hr.promoted_eq hcount).trans hcomer
    have hw := (comer_waits hcomer).1
    have htable : t.promoteNaturalBigBlindWaiter.tableSize = t.tableSize := by rw [promote_frame]
    have hsame : t.promoteNaturalBigBlindWaiter.seats.eligible = t.prospective c := by
      obtain ⟨st, hst, _⟩ := waits_iff.mp hw
      exact funext (promoted_eligible hpromoted hst (hf c st hst hw))
    rw [eligibleCount, TableSeats.eligibleCount_eq, hr.promote.size, htable, hsame, hr.prospective_count hw]
    rfl

/-- What a hand dealt to three seats or more leaves. -/
theorem PlaysHand.follows (hb : t.Between) (hf : t.Funded) (hone : 1 ≤ t.eligibleCount)
    (hcount : 3 ≤ t.promoteNaturalBigBlindWaiter.eligibleCount) (hp : PlaysHand t start t') :
    ∃ turn, t'.ring turn = t.ringAfter ∧ t'.Follows turn := by
  have hleft := hp.left hb
  obtain ⟨_, hbegin, _⟩ := id hp
  obtain ⟨_, rfl, _⟩ := beginHand_started hbegin
  have hring := hb.ring.promote
  have hsize : t'.seats.tableSize = t.promoteNaturalBigBlindWaiter.seats.tableSize := by
    rw [hleft.between.ring.size, hleft.tableSize, hring.size, promote_frame]
  have hsame : t'.seats.eligible = t.promoteNaturalBigBlindWaiter.seats.eligible := funext hleft.eligible
  obtain ⟨_, hbutton, hfound⟩ := hring.beginHand_positions (by omega)
  obtain ⟨_, _, hblinds⟩ := TableSeats.positions_spec hbutton (by exact Nat.le_of_succ_le hcount) hfound
  have hmany : ¬ t.promoteNaturalBigBlindWaiter.seats.eligibleCount = 2 := by
    have : 3 ≤ t.promoteNaturalBigBlindWaiter.seats.eligibleCount := hcount
    omega
  rw [if_neg hmany] at hblinds
  have hnextSame : t'.seats.nextForHand = t.promoteNaturalBigBlindWaiter.seats.nextForHand := by
    funext p
    rw [TableSeats.nextForHand, TableSeats.nextForHand, hsize, hsame]
  refine ⟨(t.promoteNaturalBigBlindWaiter.blindsFrom t.promoteNaturalBigBlindWaiter.handStart.button).bigBlind, ?_,
    hleft.between, ?_, _, _, hleft.button, (hleft.eligible _).trans hbutton, (congrFun hnextSame _).trans hblinds.1,
    (congrFun hnextSame _).trans hblinds.2⟩
  · rw [ring_congr hleft.eligible hleft.waits, ringAfter]
    cases hcomer : t.comer with
    | none =>
      have hnone := promote_none ((hb.ring.promoted_eq hone).trans hcomer)
      rw [hnone] at hcount hbutton hfound ⊢
      have hbig : t.seats.eligible (t.blindsFrom t.handStart.button).bigBlind = true := by
        rw [hnone] at hblinds
        exact (TableSeats.nextForHand_eligible hblinds.2).1
      rw [hb.ring.third_found hbig (hb.ring.bigBlind_before hcount hfound), Option.getD_some]
    | some c =>
      have hpromoted := (hb.ring.promoted_eq hone).trans hcomer
      obtain ⟨st, hst, _⟩ := waits_iff.mp (comer_waits hcomer).1
      obtain ⟨_, positions, hpositions, hbig, _⟩ := promoted_bigBlind hb.ring hpromoted hst (hf c st hst (comer_waits hcomer).1)
      obtain ⟨_, heligible, hwaits⟩ := promote_seats hf hpromoted
      rw [hfound] at hpositions
      cases hpositions
      rw [hbig]
      simp only [ring, heligible, hwaits, Rotation.Ring.mk.injEq]
      refine ⟨?_, ?_, trivial⟩
      · ext x
        simp only [Finset.mem_map, Finset.mem_filter, Finset.mem_univ, true_and, Finset.mem_insert, Fin.valEmbedding_apply,
          Bool.or_eq_true, decide_eq_true_eq]
        constructor
        · rintro ⟨p, hp | rfl, rfl⟩
          · exact Or.inr ⟨p, hp, rfl⟩
          · exact Or.inl rfl
        · rintro (rfl | ⟨p, hp, rfl⟩)
          · exact ⟨c, Or.inr rfl, rfl⟩
          · exact ⟨p, Or.inl hp, rfl⟩
      · ext x
        simp only [Finset.mem_map, Finset.mem_filter, Finset.mem_univ, true_and, Finset.mem_erase, Fin.valEmbedding_apply,
          Bool.and_eq_true, decide_eq_true_eq]
        constructor
        · rintro ⟨p, ⟨hp, hne⟩, rfl⟩
          exact ⟨fun he => hne (Fin.ext he), p, hp, rfl⟩
        · rintro ⟨hne, p, hp, rfl⟩
          exact ⟨p, ⟨hp, fun he => hne (congrArg Fin.val he)⟩, rfl⟩
  · rw [eligibleCount, TableSeats.eligibleCount_congr hsize hleft.eligible]
    exact hcount

/-! ## Hands in a row -/

variable {starts : List HandStart}

theorem promote_waits (h : t.promoteNaturalBigBlindWaiter.waits p = true) : t.waits p = true := by
  cases hpromoted : t.promoted with
  | none => rwa [promote_none hpromoted] at h
  | some c =>
    rw [promote_some hpromoted, waits] at h
    simp only [modifySeat, TableSeats.seat_modify] at h
    by_cases hp : p = c
    · subst hp
      cases hst : t.seats.seat p <;> simp [hst, promotion] at h
    · rwa [if_neg hp] at h

theorem PlaysHand.mem_start (hp : PlaysHand t start t') (p : SeatId) :
    p ∈ start.seatStacks.map (·.1) ↔ t.promoteNaturalBigBlindWaiter.seats.eligible p = true := by
  obtain ⟨_, hbegin, _⟩ := hp
  obtain ⟨_, rfl, _⟩ := beginHand_started hbegin
  exact mem_dealtStacks

theorem PlaysHands.snoc {t'' : TableLifecycle} (h : PlaysHands t starts t') (hp : PlaysHand t' start t'') :
    PlaysHands t (starts ++ [start]) t'' := by
  induction h with
  | none => exact .next hp (.none _)
  | next hfirst _ ih => exact .next hfirst (ih hp)

/-- The last hand. -/
theorem PlaysHands.last (h : PlaysHands t starts t') (hne : starts ≠ []) :
    ∃ earlier start mid, PlaysHands t earlier mid ∧ PlaysHand mid start t' := by
  induction h with
  | none => exact absurd rfl hne
  | @next t t₁ t' start starts hfirst hrest ih =>
    by_cases hlast : starts = []
    · subst hlast
      cases hrest
      exact ⟨[], start, t, .none t, hfirst⟩
    · obtain ⟨earlier, last, mid, hearlier, hmid⟩ := ih hlast
      exact ⟨start :: earlier, last, mid, .next hfirst hearlier, hmid⟩

theorem PlaysHands.between (h : PlaysHands t starts t') (hb : t.Between) : t'.Between ∧ t'.tableSize = t.tableSize := by
  induction h with
  | none => exact ⟨hb, rfl⟩
  | next hfirst _ ih =>
    have hleft := hfirst.left hb
    obtain ⟨hlast, hsize⟩ := ih hleft.between
    exact ⟨hlast, hsize.trans hleft.tableSize⟩

theorem PlaysHands.funded (h : PlaysHands t starts t') (hb : t.Between) (hf : t.Funded) :
    t'.Funded ∧ t'.chipsInPlay = t.chipsInPlay := by
  induction h with
  | none => exact ⟨hf, rfl⟩
  | next hfirst _ ih =>
    have hleft := hfirst.left hb
    obtain ⟨hlast, hchips⟩ := ih hleft.between (hleft.funded hf)
    exact ⟨hlast, hchips.trans (hfirst.chips hb hf)⟩

theorem PlaysHand.count (hb : t.Between) (hp : PlaysHand t start t') :
    t'.eligibleCount = t.promoteNaturalBigBlindWaiter.eligibleCount := by
  have hleft := hp.left hb
  have hsize : t'.seats.tableSize = t.promoteNaturalBigBlindWaiter.seats.tableSize := by
    rw [hleft.between.ring.size, hleft.tableSize, hb.ring.promote.size, promote_frame]
  exact TableSeats.eligibleCount_congr hsize hleft.eligible

/-- The next hand is dealt to two players at least. -/
theorem PlaysHands.dealable (h : PlaysHands t starts t') (hb : t.Between) (hf : t.Funded)
    (hcount : 2 ≤ t.promoteNaturalBigBlindWaiter.eligibleCount) : 2 ≤ t'.promoteNaturalBigBlindWaiter.eligibleCount := by
  induction h with
  | none => exact hcount
  | next hfirst _ ih =>
    have hleft := hfirst.left hb
    have hf' := hleft.funded hf
    have hmore := promote_count hleft.between.ring hf' (by rw [hfirst.count hb]; omega)
    refine ih hleft.between hf' ?_
    rw [hmore, hfirst.count hb]
    omega

/-- Whoever still waits has waited all the time. -/
theorem PlaysHands.waited (h : PlaysHands t starts t') (hb : t.Between) (hw : t'.waits p = true) :
    t.waits p = true ∧ ∀ start ∈ starts, p ∉ start.seatStacks.map (·.1) := by
  induction h with
  | none => exact ⟨hw, fun _ h => nomatch h⟩
  | next hfirst _ ih =>
    have hleft := hfirst.left hb
    obtain ⟨hwaits, hnever⟩ := ih hleft.between hw
    rw [hleft.waits] at hwaits
    refine ⟨promote_waits hwaits, fun start hstart => ?_⟩
    rcases List.mem_cons.mp hstart with rfl | hstart
    · rw [hfirst.mem_start, waits_ineligible hwaits]
      exact Bool.false_ne_true
    · exact hnever start hstart

/-- Whoever waits no more has been dealt in. -/
theorem PlaysHands.let_in (h : PlaysHands t starts t') (hb : t.Between) (hf : t.Funded) (hw : t.waits p = true)
    (hin : t'.waits p = false) : ∃ start ∈ starts, p ∈ start.seatStacks.map (·.1) := by
  induction h with
  | none =>
    rw [hw] at hin
    cases hin
  | @next t t₁ t' start starts hfirst _ ih =>
    have hleft := hfirst.left hb
    cases hwaits : t₁.waits p with
    | true =>
      obtain ⟨later, hlater, hdealt⟩ := ih hleft.between (hleft.funded hf) hwaits hin
      exact ⟨later, List.mem_cons_of_mem _ hlater, hdealt⟩
    | false =>
      have hsame := promote_inPlay hf p
      rw [← hleft.waits, hwaits, hw, Bool.or_true, Bool.or_false] at hsame
      exact ⟨start, List.mem_cons_self, (hfirst.mem_start p).mpr hsame⟩

/-- A player without chips is never dealt in. -/
theorem PlaysHands.broke (h : PlaysHands t starts t') (hb : t.Between) (hzero : t.chipsAt p = 0) :
    ∀ start ∈ starts, p ∉ start.seatStacks.map (·.1) := by
  induction h with
  | none => exact fun _ h => nomatch h
  | @next t t₁ t' start starts hfirst _ ih =>
    have hleft := hfirst.left hb
    have hout : ¬ t.promoteNaturalBigBlindWaiter.seats.eligible p = true := by
      intro hel
      obtain ⟨st, hst, hel⟩ := TableSeats.eligible_iff.mp hel
      rw [← congrFun (chipsAt_promote t) p, chipsAt, held, hst] at hzero
      have hempty : st.stack = 0 := hzero
      simp [SeatState.eligibleForNextHand, hempty] at hel
    have hkept : t₁.chipsAt p = 0 := by
      rw [chipsAt, held, hleft.undealt p hout]
      exact (congrFun (chipsAt_promote t) p).trans hzero
    intro later hlater
    rcases List.mem_cons.mp hlater with rfl | hlater
    · rwa [hfirst.mem_start]
    · exact ih hleft.between hkept later hlater

/-- After a hand between two, the others go on waiting. -/
theorem PlaysHands.stuck (h : PlaysHands t starts t') (hb : t.Between) {last : SeatId} (hlast : t.lastButton = some last)
    (hel : t.seats.eligible last = true) (htwo : t.eligibleCount = 2) (hw : t.waits p = true) : t'.waits p = true := by
  induction h generalizing last with
  | none => exact hw
  | next hfirst _ ih =>
    have hleft := hfirst.left hb
    have hcount := hfirst.count hb
    obtain ⟨_, hbegin, _⟩ := id hfirst
    obtain ⟨htwo', rfl, _⟩ := beginHand_started hbegin
    obtain ⟨_, hbutton, _⟩ := hb.ring.promote.beginHand_positions htwo'
    have hnone := promote_none ((hb.ring.promoted_eq (by omega)).trans (hb.ring.comer_heads_up hlast hel htwo))
    refine ih hleft.between hleft.button ((hleft.eligible _).trans hbutton) ?_ ?_
    · rw [hcount, hnone, htwo]
    · rw [hleft.waits, hnone, hw]

/-- Hands dealt to three seats or more are turns of the ring. -/
theorem PlaysHands.turns (h : PlaysHands t starts t') (hfollows : t.Follows turn) (hf : t.Funded) :
    ∃ turn', Rotation.Turns t.tableSize.get starts.length (t.ring turn) (t'.ring turn') := by
  induction h generalizing turn with
  | none => exact ⟨turn, .none _⟩
  | next hfirst _ ih =>
    have hb := hfollows.between
    have hleft := hfirst.left hb
    have hcount := hfollows.count
    have hturn := hfollows.ring_turn
    obtain ⟨next, hring, hnext⟩ := hfirst.follows hb hf (by omega) (by rw [promote_count hb.ring hf (by omega)]; omega)
    obtain ⟨turn', hturns⟩ := ih hnext (hleft.funded hf)
    rw [hleft.tableSize] at hturns
    rw [← hring] at hturn
    exact ⟨turn', .next hturn hturns⟩

/-- How long it is until nobody waits. -/
theorem PlaysHands.waiting_iff (hfirst : PlaysHand t start t') {t'' : TableLifecycle} (hrest : PlaysHands t' starts t'')
    (hb : t.Between) (hf : t.Funded) (hone : 1 ≤ t.eligibleCount) (hcount : 3 ≤ t.promoteNaturalBigBlindWaiter.eligibleCount) :
    t.ringAfter.Valid t.tableSize.get ∧
      ((∀ p, t''.waits p = false) ↔ t.ringAfter.rounds t.tableSize.get ≤ starts.length) := by
  have hleft := hfirst.left hb
  obtain ⟨turn, hring, hfollows⟩ := hfirst.follows hb hf hone hcount
  obtain ⟨turn', hturns⟩ := hrest.turns hfollows (hleft.funded hf)
  have hvalid := hfollows.between.ring.ring_valid hfollows.order.1
  rw [hleft.tableSize, hring] at hturns hvalid
  refine ⟨hvalid, Iff.trans ?_ (hturns.waiting_iff hvalid)⟩
  rw [Finset.eq_empty_iff_forall_notMem]
  constructor
  · intro hnone x hx
    obtain ⟨p, hp, _⟩ := mem_ring_waiting.mp hx
    rw [hnone] at hp
    cases hp
  · intro hnone p
    refine Bool.eq_false_iff.mpr fun hp => hnone p.val (mem_ring_waiting.mpr ⟨p, hp, rfl⟩)

/-! ## The bound -/

/-- The next hand is dealt to three, or to two and leaves nobody waiting. -/
theorem InTime.opens (hin : t.InTime) (hr : t.Ring) (hone : 1 ≤ t.eligibleCount) :
    3 ≤ t.promoteNaturalBigBlindWaiter.eligibleCount ∨
      2 ≤ t.promoteNaturalBigBlindWaiter.eligibleCount ∧ ∀ p, t.promoteNaturalBigBlindWaiter.waits p = false := by
  have hmore := promote_count hr hin.chips hone
  rcases hin.enough with hthree | ⟨c, hcomer, htwo | halone⟩
  · exact Or.inl (by omega)
  · rw [hcomer] at hmore
    have hlength : (some c).toList.length = 1 := rfl
    exact Or.inl (by omega)
  · rw [hcomer] at hmore
    have hlength : (some c).toList.length = 1 := rfl
    refine Or.inr ⟨by omega, fun p => ?_⟩
    obtain ⟨_, _, hwaits⟩ := promote_seats hin.chips ((hr.promoted_eq hone).trans hcomer)
    rw [hwaits]
    cases hp : t.waits p with
    | false => rfl
    | true => simp [halone p hp]

theorem InTime.bounded (hin : t.InTime) (hb : t.Between) (hone : 1 ≤ t.eligibleCount) : t.BoundedWait := by
  have hf : t.Funded := hin.chips
  have hopens := hin.opens hb.ring hone
  have htwo : 2 ≤ t.promoteNaturalBigBlindWaiter.eligibleCount := by
    rcases hopens with hthree | ⟨htwo, _⟩
    · omega
    · exact htwo
  refine ⟨fun starts t' hplayed _ => ?_, fun starts t' hplayed hlength p hw => ?_⟩
  · obtain ⟨hb', _⟩ := hplayed.between hb
    obtain ⟨hf', hchips⟩ := hplayed.funded hb hf
    refine plays_hand hb' (hplayed.dealable hb hf htwo) ?_
    have hdealt := dealt_le hb'.ring hf'
    have hfits := hin.fits
    omega
  · refine hplayed.let_in hb hf hw ?_
    have hpos := t.tableSize.pos
    cases hplayed with
    | none =>
      rw [List.length_nil] at hlength
      omega
    | @next _ t₁ _ start starts hfirst hrest =>
      rw [List.length_cons] at hlength
      rcases hopens with hthree | ⟨_, hnone⟩
      · obtain ⟨hvalid, hiff⟩ := PlaysHands.waiting_iff hfirst hrest hb hf hone hthree
        have hless := (Rotation.rounds_lt_iff hvalid).mpr hin.round
        exact hiff.mpr (by omega) p
      · refine Bool.eq_false_iff.mpr fun hstill => ?_
        have hleft := hfirst.left hb
        have hwaited := (hrest.waited hleft.between hstill).1
        rw [hleft.waits, hnone] at hwaited
        cases hwaited

/-- As many hands as there are seats can be played. -/
theorem BoundedWait.hands (h : t.BoundedWait) (n : Nat) (hn : n ≤ t.tableSize.get) :
    ∃ starts t', PlaysHands t starts t' ∧ starts.length = n := by
  induction n with
  | zero => exact ⟨[], t, .none t, rfl⟩
  | succ n ih =>
    obtain ⟨starts, t', hplayed, hlength⟩ := ih (by omega)
    obtain ⟨start, t'', hnext⟩ := h.plays starts t' hplayed (by omega)
    exact ⟨starts ++ [start], t'', hplayed.snoc hnext, by rw [List.length_append, hlength]; rfl⟩

/-- A hand is played between two others, and to two players at least. -/
theorem PlaysHand.dealable (h : PlaysHand t start t') : t.activeHand = none ∧ t.state ≠ .closed ∧
    2 ≤ t.promoteNaturalBigBlindWaiter.eligibleCount := by
  obtain ⟨_, hbegin, _⟩ := h
  rcases t.beginHand_cases with ⟨_, error, he⟩ | ⟨hidle, hopen, ⟨_, he⟩ | ⟨hcount, _⟩⟩
  · rw [he] at hbegin
    cases hbegin
  · rw [he] at hbegin
    cases hbegin
  · exact ⟨hidle, hopen, hcount⟩

section everybody
variable (h : PlaysHands t starts t') (hb : t.Between)
  (hin : ∀ p, t.waits p = true → ∃ start ∈ starts, p ∈ start.seatStacks.map (·.1))
include h hb hin

/-- Where everybody who waits is dealt in, they all have chips. -/
theorem PlaysHands.chips_of_dealt : t.Funded := by
  intro p st hst hw
  obtain ⟨start, hstart, hdealt⟩ := hin p hw
  by_contra hzero
  have hchips : t.chipsAt p = 0 := by
    rw [chipsAt, held, hst]
    exact Nat.eq_zero_of_not_pos hzero
  exact h.broke hb hchips start hstart hdealt

/-- Where everybody who waits is dealt in, nobody waits afterwards. -/
theorem PlaysHands.nobody_waits : ∀ p, t'.waits p = false := by
  intro p
  refine Bool.eq_false_iff.mpr fun hw => ?_
  obtain ⟨hwaits, hnever⟩ := h.waited hb hw
  obtain ⟨start, hstart, hdealt⟩ := hin p hwaits
  exact hnever start hstart hdealt

end everybody

section emptied
variable (h : PlaysHands t starts t') (hb : t.Between) (hne : starts ≠ []) (hnone : ∀ p, t'.waits p = false)
include h hb hne hnone

/-- Whoever a first hand between two does not let in would wait for ever. -/
theorem PlaysHands.heads_up (hcount : t.promoteNaturalBigBlindWaiter.eligibleCount = 2) :
    ∀ p, t.promoteNaturalBigBlindWaiter.waits p = false := by
  intro p
  refine Bool.eq_false_iff.mpr fun hw => ?_
  cases h with
  | none => exact absurd rfl hne
  | next hfirst hrest =>
    have hleft := hfirst.left hb
    obtain ⟨_, hbegin, _⟩ := id hfirst
    obtain ⟨htwo, rfl, _⟩ := beginHand_started hbegin
    obtain ⟨_, hbutton, _⟩ := hb.ring.promote.beginHand_positions htwo
    have hstill := hrest.stuck hleft.between hleft.button ((hleft.eligible _).trans hbutton)
      ((hfirst.count hb).trans hcount) ((hleft.waits p).trans hw)
    rw [hnone] at hstill
    cases hstill

/-- The last hand is dealt to everybody, so all the chips fit it. -/
theorem PlaysHands.all_fit (hf : t.Funded) : t.chipsInPlay ≤ u32Max := by
  obtain ⟨earlier, last, mid, hearlier, hlast⟩ := h.last hne
  obtain ⟨hbMid, _⟩ := hearlier.between hb
  obtain ⟨hfMid, hchips⟩ := hearlier.funded hb hf
  have hnobody : ∀ p, mid.promoteNaturalBigBlindWaiter.waits p = false := fun p => by
    rw [← (hlast.left hbMid).waits]
    exact hnone p
  obtain ⟨_, htakes, _⟩ := hlast.seat hbMid
  obtain ⟨begun, hbegun, _, _, hfits⟩ := (takes_iff (dealHand_dealtIn _)).mp htakes
  obtain rfl : mid.promoteNaturalBigBlindWaiter.handStart = begun := Option.some.inj hbegun
  rw [← hchips, ← dealt_all hbMid.ring hfMid hnobody]
  exact hfits

/-- The ring turns far enough in those hands. -/
theorem PlaysHands.round_fits (hf : t.Funded) (hone : 1 ≤ t.eligibleCount)
    (hthree : 3 ≤ t.promoteNaturalBigBlindWaiter.eligibleCount)
    (hlength : starts.length ≤ t.tableSize.get) :
    t.ringAfter.Crosses → t.ringAfter.above.card + t.ringAfter.players.card < t.tableSize.get := by
  cases h with
  | none => exact absurd rfl hne
  | next hfirst hrest =>
    rw [List.length_cons] at hlength
    obtain ⟨hvalid, hiff⟩ := PlaysHands.waiting_iff hfirst hrest hb hf hone hthree
    have hrounds := hiff.mp hnone
    exact (Rotation.rounds_lt_iff hvalid).mp (by omega)

end emptied

section headsUp
variable (hr : t.Ring) (hf : t.Funded) (hone : 1 ≤ t.eligibleCount)
  (hheadsUp : t.promoteNaturalBigBlindWaiter.eligibleCount = 2 → ∀ p, t.promoteNaturalBigBlindWaiter.waits p = false)
include hr hf hone hheadsUp

/-- Somebody who waits comes at once, unless there are three players already. -/
theorem enough_of_heads_up (htwo : 2 ≤ t.promoteNaturalBigBlindWaiter.eligibleCount) (hwaiting : ∃ p, t.waits p = true) :
    3 ≤ t.eligibleCount ∨ ∃ c, t.comer = some c ∧ (t.eligibleCount = 2 ∨ ∀ p, t.waits p = true → p = c) := by
  have hmore := promote_count hr hf hone
  by_contra hfew
  push Not at hfew
  obtain ⟨hless, hcomes⟩ := hfew
  cases hcomer : t.comer with
  | none =>
    have hkept := promote_none ((hr.promoted_eq hone).trans hcomer)
    rw [hcomer, Option.toList_none, List.length_nil] at hmore
    obtain ⟨p, hp⟩ := hwaiting
    have hout := hheadsUp (by omega) p
    rw [hkept, hp] at hout
    cases hout
  | some c =>
    obtain ⟨hnot, q, hq, hne⟩ := hcomes c hcomer
    obtain ⟨_, _, hwaits⟩ := promote_seats hf ((hr.promoted_eq hone).trans hcomer)
    rw [hcomer] at hmore
    have hlast : (some c).toList.length = 1 := rfl
    have hout := hheadsUp (by omega) q
    rw [hwaits, hq, Bool.true_and, decide_eq_false_iff_not] at hout
    exact hout hne

/-- A first hand between two leaves nobody to wait past the last seat. -/
theorem no_crossing_of_heads_up (hcount : t.promoteNaturalBigBlindWaiter.eligibleCount = 2) : ¬ t.ringAfter.Crosses := by
  rintro ⟨⟨x, hx, _⟩, _⟩
  have hnobody := hheadsUp hcount
  unfold ringAfter at hx
  cases hcomer : t.comer with
  | none =>
    rw [hcomer] at hx
    obtain ⟨p, hp, _⟩ := mem_ring_waiting.mp hx
    have hout := hnobody p
    rw [promote_none ((hr.promoted_eq hone).trans hcomer), hp] at hout
    cases hout
  | some c =>
    rw [hcomer] at hx
    obtain ⟨hne, hx⟩ := Finset.mem_erase.mp hx
    obtain ⟨p, hp, rfl⟩ := mem_ring_waiting.mp hx
    obtain ⟨_, _, hwaits⟩ := promote_seats hf ((hr.promoted_eq hone).trans hcomer)
    have hout := hnobody p
    rw [hwaits, hp, Bool.true_and, decide_eq_false_iff_not] at hout
    exact absurd (fun he => hne (congrArg Fin.val he)) hout

end headsUp

theorem BoundedWait.inTime (h : t.BoundedWait) (hr : t.Ring) (hpending : t.activeHand = none → t.pending = .empty)
    (hone : 1 ≤ t.eligibleCount) (hwaiting : ∃ p, t.waits p = true) : t.InTime := by
  have hpos := t.tableSize.pos
  obtain ⟨start, t₁, hplays⟩ := h.plays [] t (.none t) hpos
  obtain ⟨hidle, hopen, htwo⟩ := hplays.dealable
  have hb : t.Between := ⟨hr, hidle, hopen, hpending hidle⟩
  obtain ⟨starts, t', hplayed, hlength⟩ := h.hands _ (Nat.le_refl _)
  have hne : starts ≠ [] := by
    rintro rfl
    rw [List.length_nil] at hlength
    omega
  have hin := h.dealt starts t' hplayed hlength
  have hf := hplayed.chips_of_dealt hb hin
  have hnone := hplayed.nobody_waits hb hin
  have hheadsUp := hplayed.heads_up hb hne hnone
  refine ⟨hidle, hopen, hf, hplayed.all_fit hb hne hnone hf, enough_of_heads_up hr hf hone hheadsUp htwo hwaiting, ?_⟩
  by_cases hthree : 3 ≤ t.promoteNaturalBigBlindWaiter.eligibleCount
  · exact hplayed.round_fits hb hne hnone hf hone hthree (Nat.le_of_eq hlength)
  · exact fun hcrosses => absurd hcrosses (no_crossing_of_heads_up hr hf hone hheadsUp (by omega))

end hand

/-! ## Every run -/

/-- Whatever was called on a table, new or restored: with a seat eligible and a player with chips waiting, everybody
    who waits is dealt in within a round of the seats, and each hand can be played, exactly when they come in time. -/
theorem run_waits_iff {t : TableLifecycle} (hs : t.Starts) (ops : List LifecycleOp)
    (heligible : ∃ p, (t.run ops).seats.eligible p = true)
    (hwaiting : ∃ p st, (t.run ops).seats.seat p = some st ∧ st.tableParticipation = .waitingForBlind ∧ 0 < st.stack) :
    (t.run ops).BoundedWait ↔ (t.run ops).InTime := by
  have hr := hs.ring.run ops
  have hpending := (hs.orderly.run ops).idle
  have hone : 1 ≤ (t.run ops).eligibleCount := by
    obtain ⟨p, hp⟩ := heligible
    rw [eligibleCount, TableSeats.eligibleCount_eq]
    exact List.length_pos_of_mem (List.mem_filter.mpr ⟨TableSeats.mem_seats_of_eligible hp, hp⟩)
  constructor
  · intro h
    obtain ⟨p, st, hst, hw, _⟩ := hwaiting
    exact h.inTime hr hpending hone ⟨p, waits_iff.mpr ⟨st, hst, hw⟩⟩
  · intro h
    exact h.bounded ⟨hr, h.idle, h.isOpen, hpending h.idle⟩ hone

/-- Three players and a hand played, then a fourth who waits. -/
def fourthWaits : List LifecycleOp := [.join ⟨1⟩ 0 100, .join ⟨2⟩ 1 100, .join ⟨3⟩ 2 100, .beginHand,
  .completeHand [(0, 100), (1, 100), (2, 100)], .joinWithEntry ⟨4⟩ 3 100 .waitForBigBlind]

theorem run_waits_fourth : ((new ⟨4, by decide, by decide⟩).run fourthWaits).BoundedWait := by
  have hwaits : (((new ⟨4, by decide, by decide⟩).run fourthWaits).seats.seat 3).any
      (fun st => st.tableParticipation = .waitingForBlind && 0 < st.stack) = true := by decide +kernel
  have hchips : ∀ p : SeatId, (((new ⟨4, by decide, by decide⟩).run fourthWaits).seats.seat p).all
      (fun st => 0 < st.stack) = true := by
    decide +kernel
  refine (run_waits_iff (.new _) fourthWaits ⟨0, by decide +kernel⟩ ?_).mpr
    ⟨by decide +kernel, by decide +kernel, fun p st hst _ => ?_, by decide +kernel, Or.inl (by decide +kernel), ?_⟩
  · cases hst : ((new ⟨4, by decide, by decide⟩).run fourthWaits).seats.seat 3 with
    | none =>
      rw [hst] at hwaits
      cases hwaits
    | some st =>
      rw [hst] at hwaits
      exact ⟨3, st, hst, by simpa using hwaits⟩
  · have hp := hchips p
    rw [hst] at hp
    simpa using hp
  · intro hcross
    exact absurd hcross (by decide +kernel)

/-- Two players and a hand played, then a third who waits. -/
def thirdWaits : List LifecycleOp := [.join ⟨1⟩ 0 100, .join ⟨2⟩ 1 100, .beginHand, .completeHand [(0, 100), (1, 100)],
  .joinWithEntry ⟨3⟩ 2 100 .waitForBigBlind]

/-- The third player is kept out for ever. -/
theorem third_waits_for_ever :
    (∃ st, ((new ⟨3, by decide, by decide⟩).run thirdWaits).seats.seat 2 = some st ∧
      st.tableParticipation = .waitingForBlind ∧ 0 < st.stack) ∧
      ((new ⟨3, by decide, by decide⟩).run thirdWaits).seats.eligible 0 = true ∧
      (∀ starts t', PlaysHands ((new ⟨3, by decide, by decide⟩).run thirdWaits) starts t' →
        ∀ start ∈ starts, (2 : SeatId) ∉ start.seatStacks.map (·.1)) ∧
      ¬ ((new ⟨3, by decide, by decide⟩).run thirdWaits).BoundedWait := by
  have hs : (new ⟨3, by decide, by decide⟩).Starts := .new _
  have hring := hs.ring.run thirdWaits
  have hpending := (hs.orderly.run thirdWaits).idle
  have hwaits : (((new ⟨3, by decide, by decide⟩).run thirdWaits).seats.seat 2).any
      (fun st => st.tableParticipation = .waitingForBlind && 0 < st.stack) = true := by decide +kernel
  have hidle : ((new ⟨3, by decide, by decide⟩).run thirdWaits).activeHand = none := by decide +kernel
  have hopen : ((new ⟨3, by decide, by decide⟩).run thirdWaits).state ≠ .closed := by decide +kernel
  have hlast : ((new ⟨3, by decide, by decide⟩).run thirdWaits).lastButton = some 0 := by decide +kernel
  have hel : ((new ⟨3, by decide, by decide⟩).run thirdWaits).seats.eligible 0 = true := by decide +kernel
  have htwo : ((new ⟨3, by decide, by decide⟩).run thirdWaits).eligibleCount = 2 := by decide +kernel
  generalize (new ⟨3, by decide, by decide⟩).run thirdWaits = t at *
  obtain ⟨st, hst, hw, hchips⟩ : ∃ st, t.seats.seat 2 = some st ∧ st.tableParticipation = .waitingForBlind ∧ 0 < st.stack := by
    cases hst : t.seats.seat 2 with
    | none =>
      rw [hst] at hwaits
      cases hwaits
    | some st =>
      rw [hst] at hwaits
      exact ⟨st, rfl, by simpa using hwaits⟩
  have hb : t.Between := ⟨hring, hidle, hopen, hpending hidle⟩
  have hnever : ∀ starts t', PlaysHands t starts t' → ∀ start ∈ starts, (2 : SeatId) ∉ start.seatStacks.map (·.1) :=
    fun starts t' h => (h.waited hb (h.stuck hb hlast hel htwo (waits_iff.mpr ⟨st, hst, hw⟩))).2
  refine ⟨⟨st, hst, hw, hchips⟩, hel, hnever, fun hbounded => ?_⟩
  obtain ⟨starts, t', hplayed, hlength⟩ := hbounded.hands _ (Nat.le_refl _)
  obtain ⟨start, hstart, hdealt⟩ := hbounded.dealt starts t' hplayed hlength 2 (waits_iff.mpr ⟨st, hst, hw⟩)
  exact hnever starts t' hplayed start hstart hdealt

end TableLifecycle

end OpenFelt
