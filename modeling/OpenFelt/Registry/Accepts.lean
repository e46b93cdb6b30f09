/-
  OpenFelt.Registry.Accepts — exactly when the calls that the registry makes on a table's
  lifecycle and on its tournament are accepted: a player let in (`LetsIn`), a hand begun
  (`Begins`), a hand's stacks taken by the lifecycle (`Takes`) and by the tournament
  (`TournamentController.Takes`).
-/

import OpenFelt.Registry.Rosters
import OpenFelt.Registry.Tournament

namespace OpenFelt

theorem checkedTotal_eq (amounts : List Nat) :
    checkedTotal amounts = if amounts.sum ≤ u32Max then some amounts.sum else none := by
  have hnone : ∀ l : List Nat, l.foldl (fun (total : Option Nat) stack =>
      total.bind fun total => if total + stack ≤ u32Max then some (total + stack) else none) none = none := by
    intro l
    induction l with
    | nil => rfl
    | cons x l ih => exact ih
  have hfrom : ∀ (l : List Nat) (n : Nat), n ≤ u32Max → l.foldl (fun (total : Option Nat) stack =>
      total.bind fun total => if total + stack ≤ u32Max then some (total + stack) else none) (some n) =
        if n + l.sum ≤ u32Max then some (n + l.sum) else none := by
    intro l
    induction l with
    | nil =>
      intro n hn
      simpa using hn
    | cons x l ih =>
      intro n hn
      rw [List.foldl_cons, List.sum_cons, ← Nat.add_assoc]
      by_cases hx : n + x ≤ u32Max
      · rw [Option.bind_some, if_pos hx]
        exact ih (n + x) hx
      · rw [Option.bind_some, if_neg hx, hnone, if_neg (by omega)]
  have h := hfrom amounts 0 (Nat.zero_le _)
  rw [Nat.zero_add] at h
  exact h

namespace TableLifecycle

variable {t t' : TableLifecycle} {player : PlayerId} {seat : SeatId} {stack : Nat} {finalStacks : List (SeatId × Nat)}

/-! ## A hand's stacks -/

/-- The stacks close the hand: every seat dealt in has one, no other has, and they are the chips that were dealt. -/
def Takes (t : TableLifecycle) (finalStacks : List (SeatId × Nat)) : Prop :=
  ∃ start, t.activeHand = some start ∧ (finalStacks.map (·.1)).Nodup ∧
    (∀ q, q ∈ finalStacks.map (·.1) ↔ q ∈ start.seatStacks.map (·.1)) ∧
    (TournamentController.stacksBySeat start.seatStacks).values.sum = (finalStacks.map (·.2)).sum ∧
    (finalStacks.map (·.2)).sum ≤ u32Max

theorem reported_iff {expected actual : OrdMap SeatId Nat} {l : List (SeatId × Nat)} :
    (∃ left, reported expected l actual = .ok left) ↔ (l.map (·.1)).Nodup ∧ (∀ e ∈ l, actual.contains e.1 = false) ∧
      ∀ e ∈ l, expected.contains e.1 = true := by
  constructor
  · rintro ⟨left, h⟩
    obtain ⟨_, hnodup, hfresh, hin⟩ := reported_ok h
    exact ⟨hnodup, hfresh, hin⟩
  · rintro ⟨hnodup, hfresh, hin⟩
    induction l generalizing actual with
    | nil => exact ⟨actual, rfl⟩
    | cons e rest ih =>
      obtain ⟨hnew, hrest⟩ := List.nodup_cons.mp hnodup
      have hout : (!expected.contains e.1) = false := by rw [hin e List.mem_cons_self]; rfl
      unfold reported
      rw [if_neg (by rw [hfresh e List.mem_cons_self]; simp), if_neg (by rw [hout]; simp)]
      refine ih hrest ?_ fun x hx => hin x (List.mem_cons_of_mem _ hx)
      intro x hx
      have hne : x.1 ≠ e.1 := fun he => hnew (List.mem_map.mpr ⟨x, hx, he⟩)
      rw [OrdMap.contains, OrdMap.find_insert_ne hne]
      exact hfresh x (List.mem_cons_of_mem _ hx)

/-- What is collected from stacks without repeats is those stacks in order. -/
theorem reported_perm {expected actual : OrdMap SeatId Nat} (h : reported expected finalStacks .empty = .ok actual) :
    actual.entries.Perm finalStacks := by
  obtain ⟨hfind, hnodup, _, _⟩ := reported_ok h
  refine OrdMap.perm_entries hnodup ?_
  intro q
  rw [hfind q]
  exact Option.or_none

theorem completeHand_ok_iff : (t.completeHand finalStacks).1 = .ok () ↔ t.Takes finalStacks := by
  unfold completeHand Takes
  cases hstart : t.activeHand with
  | none => simp
  | some start =>
    have hdealt : ∀ q, (TournamentController.stacksBySeat start.seatStacks).contains q = true ↔
        q ∈ start.seatStacks.map (·.1) := by
      intro q
      refine (OrdMap.contains_collect .empty q).trans ?_
      simp [OrdMap.contains]
    dsimp only
    rw [show start.seatStacks.foldl (fun m (x : SeatId × Nat) => m.insert x.1 x.2) .empty =
      TournamentController.stacksBySeat start.seatStacks from rfl]
    cases hactual : reported (TournamentController.stacksBySeat start.seatStacks) finalStacks .empty with
    | error error =>
      constructor
      · intro h
        cases h
      · rintro ⟨other, hother, hnodup, hseats, _⟩
        obtain rfl := Option.some.inj hother
        obtain ⟨left, hleft⟩ := (@reported_iff (TournamentController.stacksBySeat start.seatStacks) .empty finalStacks).mpr
          ⟨hnodup, fun _ _ => rfl, fun e he => (hdealt e.1).mpr ((hseats e.1).mp (List.mem_map.mpr ⟨e, he, rfl⟩))⟩
        rw [hactual] at hleft
        cases hleft
    | ok actual =>
      obtain ⟨_, hnodup, _, hin⟩ := reported_ok hactual
      have hperm := reported_perm hactual
      have hkeys : ∀ q, actual.contains q = true ↔ q ∈ finalStacks.map (·.1) := by
        intro q
        rw [OrdMap.contains_iff, ← OrdMap.mem_keys]
        exact (hperm.map Prod.fst).mem_iff
      have hsum : actual.values.sum = (finalStacks.map (·.2)).sum := (hperm.map Prod.snd).sum_eq
      have hsub : ∀ q, q ∈ finalStacks.map (·.1) → q ∈ start.seatStacks.map (·.1) := by
        intro q hq
        obtain ⟨e, he, rfl⟩ := List.mem_map.mp hq
        exact (hdealt e.1).mp (hin e he)
      dsimp only
      cases hmissing : (TournamentController.stacksBySeat start.seatStacks).keys.find? fun seat => !actual.contains seat with
      | some seat =>
        have hseat := List.find?_some hmissing
        have hkey := OrdMap.contains_iff.mpr (OrdMap.mem_keys.mp (List.mem_of_find?_eq_some hmissing))
        constructor
        · intro h
          cases h
        · rintro ⟨other, hother, _, hseats, _⟩
          obtain rfl := Option.some.inj hother
          rw [(hkeys seat).mpr ((hseats seat).mpr ((hdealt seat).mp hkey))] at hseat
          cases hseat
      | none =>
        have hall : ∀ q, q ∈ finalStacks.map (·.1) ↔ q ∈ start.seatStacks.map (·.1) := by
          intro q
          refine ⟨hsub q, ?_⟩
          intro hq
          obtain ⟨n, hn⟩ := OrdMap.contains_iff.mp ((hdealt q).mpr hq)
          have hkept := List.find?_eq_none.mp hmissing q (OrdMap.mem_keys.mpr ⟨n, hn⟩)
          exact (hkeys q).mp (by simpa using hkept)
        dsimp only
        rw [checkedTotal_eq, checkedTotal_eq, hsum]
        constructor
        · intro h
          refine ⟨start, rfl, hnodup, hall, ?_⟩
          by_cases hexpected : (TournamentController.stacksBySeat start.seatStacks).values.sum ≤ u32Max
          · by_cases hfinal : (finalStacks.map (·.2)).sum ≤ u32Max
            · rw [if_pos hexpected, if_pos hfinal] at h
              dsimp only at h
              split at h
              · cases h
              · rename_i heq
                exact ⟨(not_ne_iff.mp heq).symm, hfinal⟩
            · rw [if_pos hexpected, if_neg hfinal] at h
              cases h
          · rw [if_neg hexpected] at h
            cases h
        · rintro ⟨other, hother, _, _, htotal, hfinal⟩
          obtain rfl := Option.some.inj hother
          rw [htotal, if_pos hfinal]
          dsimp only
          rw [if_neg (not_not_intro rfl)]

/-! ## A player let in -/

/-- The table is open and between hands, and neither the player nor the seat is spoken for. -/
structure LetsIn (t : TableLifecycle) (player : PlayerId) (seat : SeatId) (stack : Nat) : Prop where
  isOpen : t.state ≠ .closed
  idle : t.activeHand = none
  positive : 0 < stack
  inside : t.tableSize.contains seat = true
  mapped : t.seats.tableSize.contains seat = true
  free : t.seats.seat seat = none
  unreserved : t.reservations.find? seat = none
  stranger : ∀ p, t.playerAt p ≠ some player
  unbooked : ∀ p, t.reservations.find? p ≠ some player

theorem playerAt_stranger : t.seats.seatForPlayer player = none ↔ ∀ p, t.playerAt p ≠ some player := by
  rw [TableSeats.seatForPlayer_none]
  constructor
  · intro h p hp
    obtain ⟨st, hst, he⟩ := playerAt_some.mp hp
    exact h p st hst he
  · intro h p st hst he
    exact h p (playerAt_some.mpr ⟨st, hst, he⟩)

theorem identityPresent_iff : t.identityPresent player = false ↔
    (∀ p, t.playerAt p ≠ some player) ∧ ∀ p, t.reservations.find? p ≠ some player := by
  unfold identityPresent
  rw [Bool.or_eq_false_iff, Option.isSome_eq_false_iff, Option.isNone_iff_eq_none, playerAt_stranger, List.any_eq_false]
  refine and_congr_right fun _ => ?_
  constructor
  · intro h p hp
    exact h player (OrdMap.mem_values.mpr ⟨p, hp⟩) (decide_eq_true rfl)
  · intro h owner howner he
    obtain ⟨p, hp⟩ := OrdMap.mem_values.mp howner
    exact h p (hp.trans (congrArg some (of_decide_eq_true he)))

theorem reserve_ok_iff : (t.reserve player seat).1 = .ok () ↔ t.state ≠ .closed ∧ t.tableSize.contains seat = true ∧
    t.identityPresent player = false ∧ t.seats.seat seat = none ∧ t.reservations.find? seat = none := by
  unfold reserve ensureOpen ensureSeat
  by_cases hopen : t.state = .closed
  · simp [hopen]
  by_cases hseat : t.tableSize.contains seat = true
  · rw [if_neg hopen, if_pos hseat]
    dsimp only
    cases hpresent : t.identityPresent player with
    | true => simp
    | false =>
      cases hst : t.seats.seat seat with
      | some st => simp
      | none =>
        cases hres : t.reservations.find? seat with
        | some owner => simp [OrdMap.contains, hres]
        | none => simp [OrdMap.contains, hres, hopen, hseat]
  · simp [hopen, hseat]

theorem occupy_accepts (hopen : t.state ≠ .closed) (hidle : t.activeHand = none) (hstack : 0 < stack)
    (hseat : t.tableSize.contains seat = true) (hstranger : ∀ p, t.playerAt p ≠ some player)
    (hres : t.reservations.find? seat = some player) (hfree : t.seats.seat seat = none) :
    (t.occupy player seat stack).1 = .ok () ↔ t.seats.tableSize.contains seat = true := by
  have hnew : t.seats.seatForPlayer player = none := playerAt_stranger.mpr hstranger
  have hany : t.seats.occupied.any (fun x => decide (x.2.playerId = player)) = false := by
    rw [List.any_eq_false]
    rintro ⟨p, st⟩ hmem he
    exact hstranger p (playerAt_some.mpr ⟨st, t.seats.mem_occupied.mp hmem, of_decide_eq_true he⟩)
  unfold occupy ensureOpen ensureSeat
  rw [if_neg hopen]
  dsimp only
  rw [if_neg (by rw [handActive, hidle]; simp), if_neg (Nat.pos_iff_ne_zero.mp hstack), if_pos hseat]
  dsimp only
  rw [hnew, if_neg (by simp), hres]
  dsimp only
  rw [if_neg (not_not_intro rfl)]
  unfold TableSeats.occupy
  by_cases hmapped : t.seats.tableSize.contains seat = true
  · rw [dif_pos hmapped, hfree, if_neg (by simp),
      dif_neg (by rw [show (SeatState.seated player stack).playerId = player from rfl, hany]; simp)]
    simp [hmapped]
  · rw [dif_neg hmapped]
    simp [hmapped]

theorem join_ok_iff : (t.join player seat stack).1 = .ok () ↔ t.LetsIn player seat stack := by
  unfold join
  by_cases hstack : stack = 0
  · rw [if_pos hstack]
    constructor
    · intro h
      cases h
    · intro h
      exact absurd hstack (Nat.pos_iff_ne_zero.mp h.positive)
  rw [if_neg hstack]
  rcases t.reserve_cases player seat with ⟨error, he⟩ | ⟨he, _⟩
  · have hno : ¬ ((t.reserve player seat).1 = .ok ()) := by rw [he]; simp
    rw [he]
    constructor
    · intro h
      cases h
    · intro h
      exact absurd (reserve_ok_iff.mpr ⟨h.isOpen, h.inside, identityPresent_iff.mpr ⟨h.stranger, h.unbooked⟩,
        h.free, h.unreserved⟩) hno
  · have hreserve : (t.reserve player seat).1 = .ok () := by rw [he]
    obtain ⟨hopen, hinside, hpresent, hfree, hunreserved⟩ := reserve_ok_iff.mp hreserve
    obtain ⟨hstranger, hunbooked⟩ := identityPresent_iff.mp hpresent
    rw [he]
    dsimp only
    generalize hbooked : ({ t with reservations := t.reservations.insert seat player } : TableLifecycle) = booked
    have hocc : (booked.occupy player seat stack).1 = .ok () ↔ t.LetsIn player seat stack := by
      by_cases hidle : t.activeHand = none
      · have hbook : booked.reservations.find? seat = some player := by
          rw [← hbooked]
          exact OrdMap.find_insert_self
        have haccept := @occupy_accepts booked player seat stack (by rw [← hbooked]; exact hopen) (by rw [← hbooked]; exact hidle)
          (Nat.pos_of_ne_zero hstack) (by rw [← hbooked]; exact hinside) (by rw [← hbooked]; exact hstranger) hbook
          (by rw [← hbooked]; exact hfree)
        rw [haccept, ← hbooked]
        constructor
        · intro hmapped
          exact ⟨hopen, hidle, Nat.pos_of_ne_zero hstack, hinside, hmapped, hfree, hunreserved, hstranger, hunbooked⟩
        · exact LetsIn.mapped
      · constructor
        · intro h
          rcases booked.occupy_cases player seat stack with ⟨error, hocc⟩ | ⟨left, _, hseats⟩
          · rw [hocc] at h
            cases h
          · have hbusy := hseats.idle
            rw [← hbooked] at hbusy
            exact absurd hbusy hidle
        · intro h
          exact absurd h.idle hidle
    rw [← hocc]
    rcases booked.occupy player seat stack with ⟨result, left⟩
    cases result with
    | error error => simp
    | ok u => simp

theorem joinWithEntry_ok_iff {entry : RingEntryChoice} :
    (t.joinWithEntry player seat stack entry).1 = .ok () ↔ t.LetsIn player seat stack := by
  rw [← join_ok_iff]
  unfold joinWithEntry
  rcases t.join player seat stack with ⟨result, left⟩
  cases result with
  | error error => simp
  | ok u =>
    dsimp only
    split <;> simp

/-! ## A hand begun -/

/-- The table is open and between hands, and two players can be dealt in. -/
structure Begins (t : TableLifecycle) : Prop where
  isOpen : t.state ≠ .closed
  idle : t.activeHand = none
  enough : 2 ≤ t.promoteNaturalBigBlindWaiter.eligibleCount

theorem beginHand_ok_iff {start : HandStart} :
    t.beginHand.1 = .ok start ↔ t.Begins ∧ start = t.promoteNaturalBigBlindWaiter.handStart := by
  rcases t.beginHand_cases with ⟨hbad, error, he⟩ | ⟨hidle, hopen, ⟨hshort, he⟩ | ⟨hcount, he⟩⟩
  · rw [he]
    constructor
    · intro h
      cases h
    · rintro ⟨hbegins, _⟩
      rcases hbad with hactive | hclosed
      · rw [handActive, hbegins.idle] at hactive
        cases hactive
      · exact absurd hclosed hbegins.isOpen
  · rw [he]
    constructor
    · intro h
      cases h
    · rintro ⟨hbegins, _⟩
      exact absurd hbegins.enough (Nat.not_le.mpr hshort)
  · rw [he]
    constructor
    · intro h
      cases h
      exact ⟨⟨hopen, hidle, hcount⟩, rfl⟩
    · rintro ⟨_, rfl⟩
      rfl

end TableLifecycle

/-! ## A hand's result -/

namespace TournamentController

variable {c : TournamentController} {starting final : List (SeatId × Nat)}

/-- The result closes a hand of the tournament: both lists are about the same seats, and each seat that
    lost all it had is that of an entrant who is still in. -/
structure Takes (c : TournamentController) (starting final : List (SeatId × Nat)) : Prop where
  playing : c.status = .running ∨ c.status = .break
  seats : ∀ q, q ∈ starting.map (·.1) ↔ q ∈ final.map (·.1)
  entrants : ∀ e ∈ bustedSeats (stacksBySeat starting) (stacksBySeat final), ∃ player,
    c.entrants.entries.find? (fun entrant => entrant.2 = e.1) = some (player, e.1) ∧ c.remaining.contains player = true
  places : bustedSeats (stacksBySeat starting) (stacksBySeat final) ≠ [] → c.remaining.size ≤ 255

theorem contains_stacksBySeat {l : List (SeatId × Nat)} {q : SeatId} :
    (stacksBySeat l).contains q = true ↔ q ∈ l.map (·.1) := by
  refine (OrdMap.contains_collect .empty q).trans ?_
  simp [OrdMap.contains]

/-- The comparison of `complete_hand`: as many seats, and none missing. -/
theorem sameSeats_iff {before after : OrdMap SeatId Nat} :
    (before.size ≠ after.size || before.keys.any fun seat => !after.contains seat) = false ↔
      ∀ q, before.contains q = true ↔ after.contains q = true := by
  have hkeys : ∀ (m : OrdMap SeatId Nat) (q : SeatId), m.contains q = true ↔ q ∈ m.keys := by
    intro m q
    rw [OrdMap.contains_iff, OrdMap.mem_keys]
  rw [Bool.or_eq_false_iff, List.any_eq_false]
  constructor
  · rintro ⟨hlength, hall⟩
    have hsub : before.keys ⊆ after.keys := by
      intro q hq
      exact (hkeys after q).mp (by simpa using hall q hq)
    have hlen : after.keys.length ≤ before.keys.length := by
      rw [← OrdMap.size_eq_keys, ← OrdMap.size_eq_keys]
      exact (not_ne_iff.mp (of_decide_eq_false hlength)).ge
    have hperm := (List.subperm_of_subset before.nodup_keys hsub).perm_of_length_le hlen
    intro q
    rw [hkeys, hkeys]
    exact hperm.mem_iff
  · intro h
    refine ⟨decide_eq_false (not_not_intro (OrdMap.size_congr h)), ?_⟩
    intro q hq
    rw [(h q).mp ((hkeys before q).mpr hq)]
    simp

theorem nodup_bustedSeats (before after : OrdMap SeatId Nat) : ((bustedSeats before after).map (·.1)).Nodup := by
  have hperm := List.perm_insertionSort (fun (a b : SeatId × Nat) => a.2 < b.2 ∨ a.2 = b.2 ∧ a.1 ≤ b.1)
    (before.entries.filter fun e => 0 < e.2 && after.find? e.1 = some 0)
  refine (hperm.map Prod.fst).nodup_iff.mpr ?_
  exact before.nodup_keys.sublist (List.filter_sublist.map _)

theorem eliminate_ok_iff {n i : Nat} {l : List (SeatId × Nat)} (hn : (l.map (·.1)).Nodup) :
    (eliminate n i l c).1 = .ok () ↔ (∀ e ∈ l, ∃ player,
        c.entrants.entries.find? (fun entrant => entrant.2 = e.1) = some (player, e.1) ∧ c.remaining.contains player = true) ∧
      ∀ k < l.length, n - (i + k) ≤ 255 := by
  induction l generalizing c i with
  | nil => simp [eliminate]
  | cons e rest ih =>
    obtain ⟨hnew, hrest⟩ := List.nodup_cons.mp hn
    obtain ⟨seat, stack⟩ := e
    unfold eliminate
    cases hfind : c.entrants.entries.find? fun entrant => entrant.2 = seat with
    | none =>
      constructor
      · intro h
        cases h
      · rintro ⟨hall, _⟩
        obtain ⟨player, hplayer, _⟩ := hall (seat, stack) List.mem_cons_self
        rw [hfind] at hplayer
        cases hplayer
    | some entrant =>
      obtain ⟨player, place⟩ := entrant
      have hseat := List.find?_some hfind
      obtain rfl : place = seat := of_decide_eq_true hseat
      dsimp only
      by_cases hin : c.remaining.contains player = true
      · rw [if_neg (by rw [hin]; simp)]
        by_cases hplace : 255 < n - i
        · rw [if_pos hplace]
          constructor
          · intro h
            cases h
          · rintro ⟨_, hplaces⟩
            have hfirst := hplaces 0 (by simp)
            omega
        · rw [if_neg hplace, ih hrest]
          have hothers : ∀ e ∈ rest, ∀ other, c.entrants.entries.find? (fun entrant => entrant.2 = e.1) = some (other, e.1) →
              other ≠ player := by
            rintro e he other hother rfl
            have h1 := OrdMap.mem_entries.mp (List.mem_of_find?_eq_some hfind)
            have h2 := OrdMap.mem_entries.mp (List.mem_of_find?_eq_some hother)
            rw [h1] at h2
            exact hnew (List.mem_map.mpr ⟨e, he, (Option.some.inj h2).symm⟩)
          constructor
          · rintro ⟨hall, hplaces⟩
            refine ⟨?_, ?_⟩
            · intro e he
              rcases List.mem_cons.mp he with rfl | he
              · exact ⟨player, hfind, hin⟩
              · obtain ⟨other, hother, hkept⟩ := hall e he
                refine ⟨other, hother, ?_⟩
                rw [OrdMap.contains, OrdMap.find_erase_ne (hothers e he other hother)] at hkept
                exact hkept
            · intro k hk
              cases k with
              | zero => omega
              | succ k =>
                have := hplaces k (by simpa using hk)
                omega
          · rintro ⟨hall, hplaces⟩
            refine ⟨?_, ?_⟩
            · intro e he
              obtain ⟨other, hother, hkept⟩ := hall e (List.mem_cons_of_mem _ he)
              refine ⟨other, hother, ?_⟩
              rw [OrdMap.contains, OrdMap.find_erase_ne (hothers e he other hother)]
              exact hkept
            · intro k hk
              have := hplaces (k + 1) (by simpa using hk)
              omega
      · rw [if_pos (by simpa using hin)]
        constructor
        · intro h
          cases h
        · rintro ⟨hall, _⟩
          obtain ⟨other, hother, hkept⟩ := hall (place, stack) List.mem_cons_self
          rw [hfind] at hother
          cases hother
          exact absurd hkept hin

theorem completeHand_ok_iff : (c.completeHand starting final).1 = .ok () ↔ c.Takes starting final := by
  unfold completeHand
  by_cases hcomplete : c.status = .complete
  · rw [if_pos hcomplete]
    constructor
    · intro h
      cases h
    · intro h
      rcases h.playing with hp | hp <;> rw [hcomplete] at hp <;> cases hp
  by_cases hplaying : c.status = .running ∨ c.status = .break
  · rw [if_neg hcomplete, if_neg (not_not_intro hplaying)]
    dsimp only
    have hseats : ((stacksBySeat starting).size ≠ (stacksBySeat final).size ||
        (stacksBySeat starting).keys.any fun seat => !(stacksBySeat final).contains seat) = false ↔
          ∀ q, q ∈ starting.map (·.1) ↔ q ∈ final.map (·.1) := by
      rw [sameSeats_iff]
      refine forall_congr' fun q => ?_
      rw [contains_stacksBySeat, contains_stacksBySeat]
    cases hsame : ((stacksBySeat starting).size ≠ (stacksBySeat final).size ||
        (stacksBySeat starting).keys.any fun seat => !(stacksBySeat final).contains seat) with
    | true =>
      rw [if_pos rfl]
      constructor
      · intro h
        cases h
      · intro h
        rw [hseats.mpr h.seats] at hsame
        cases hsame
    | false =>
      rw [if_neg (by simp)]
      have hok := @eliminate_ok_iff c c.remaining.size 0 _ (nodup_bustedSeats (stacksBySeat starting) (stacksBySeat final))
      have hplaces : (∀ k < (bustedSeats (stacksBySeat starting) (stacksBySeat final)).length, c.remaining.size - (0 + k) ≤ 255) ↔
          (bustedSeats (stacksBySeat starting) (stacksBySeat final) ≠ [] → c.remaining.size ≤ 255) := by
        constructor
        · intro h hne
          exact h 0 (List.length_pos_iff.mpr hne)
        · intro h k hk
          have := h (List.length_pos_iff.mp (Nat.zero_lt_of_lt hk))
          omega
      rw [hplaces] at hok
      have hiff : (eliminate c.remaining.size 0 (bustedSeats (stacksBySeat starting) (stacksBySeat final)) c).1 = .ok () ↔
          c.Takes starting final :=
        hok.trans ⟨fun h => ⟨hplaying, hseats.mp hsame, h.1, h.2⟩, fun h => ⟨h.entrants, h.places⟩⟩
      rw [← hiff]
      rcases eliminate c.remaining.size 0 (bustedSeats (stacksBySeat starting) (stacksBySeat final)) c with ⟨result, left⟩
      cases result with
      | error error => simp
      | ok u => simp
  · rw [if_neg hcomplete, if_pos hplaying]
    constructor
    · intro h
      cases h
    · intro h
      exact absurd h.playing hplaying

end TournamentController

end OpenFelt
