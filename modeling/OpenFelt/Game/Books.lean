/-
  OpenFelt.Game.Books — what the hand's writes do to the seats.

  Every write goes through `updateSeat`, so it leaves the table as it was apart from the
  books of the seats (`SameTable`); each write below has one lemma for the seat it
  changes and one for the overflow it could raise.
-/

import Mathlib.Algebra.BigOperators.Group.List.Basic
import Mathlib.Algebra.Order.BigOperators.Group.List
import Mathlib.Algebra.Order.Group.Nat
import OpenFelt.Game.Multiway
import OpenFelt.Lib.Ledger

namespace OpenFelt

/-! ## One seat -/

section seats
variable {seats : List (Option MultiwaySeatState)} {p q : SeatId} {f : MultiwaySeatState → MultiwaySeatState}

theorem seatIn_modifySeat :
    seatIn (modifySeat seats p f) q = if q = p then (seatIn seats q).map f else seatIn seats q := by
  simp only [seatIn, modifySeat, List.getElem?_modify]
  by_cases h : q = p
  · subst h
    rcases seats[q.val]? with _ | _ | st <;> simp
  · have hv : p.val ≠ q.val := fun e => h (Fin.ext e.symm)
    simp [h, hv]

@[simp] theorem occupiedIn_modifySeat : occupiedIn (modifySeat seats p f) q = occupiedIn seats q := by
  simp only [occupiedIn, seatIn_modifySeat]
  split <;> simp

@[simp] theorem length_modifySeat : (modifySeat seats p f).length = seats.length := by simp [modifySeat]

theorem seatOf_modifySeat_self (h : occupiedIn seats p = true) : seatOf (modifySeat seats p f) p = f (seatOf seats p) := by
  obtain ⟨st, hst⟩ := Option.isSome_iff_exists.mp h
  simp [seatOf, seatIn_modifySeat, hst]

@[simp] theorem seatOf_modifySeat_ne (h : q ≠ p) : seatOf (modifySeat seats p f) q = seatOf seats q := by
  simp [seatOf, seatIn_modifySeat, h]

theorem seatOf_vacant (h : occupiedIn seats p = false) : seatOf seats p = .vacant := by
  simp only [occupiedIn, Option.isSome_eq_false_iff, Option.isNone_iff_eq_none] at h
  simp [seatOf, h]

theorem lt_of_occupiedIn (h : occupiedIn seats p = true) : p.val < seats.length := by
  by_contra hge
  simp [occupiedIn, seatIn, List.getElem?_eq_none (Nat.le_of_not_lt hge)] at h

end seats

namespace MultiwayHand

/-! ## The table under the books -/

/-- Only the books of the seats differ: who sits where does not. -/
structure SameTable (h h' : MultiwayHand) : Prop where
  frame : h' = { h with seats := h'.seats, panicked := h'.panicked }
  length : h'.seats.length = h.seats.length
  occupied : ∀ p, occupiedIn h'.seats p = occupiedIn h.seats p

section table
variable {h h' h'' : MultiwayHand} {p q : SeatId} {f : MultiwaySeatState → MultiwaySeatState}

namespace SameTable

theorem refl (h : MultiwayHand) : SameTable h h := ⟨rfl, rfl, fun _ => rfl⟩

theorem trans (a : SameTable h h') (b : SameTable h' h'') : SameTable h h'' := by
  refine ⟨?_, b.length.trans a.length, fun p => (b.occupied p).trans (a.occupied p)⟩
  rw [b.frame, a.frame]

theorem tableSize (t : SameTable h h') : h'.tableSize = h.tableSize := by rw [t.frame]

theorem occupiedSeats (t : SameTable h h') : h'.occupiedSeats = h.occupiedSeats := by
  simp only [MultiwayHand.occupiedSeats, t.tableSize]
  exact List.filter_congr fun p _ => t.occupied p

theorem foldl {α : Type} {s : MultiwayHand → α → MultiwayHand} (hs : ∀ h x, SameTable h (s h x)) (l : List α)
    (h : MultiwayHand) : SameTable h (l.foldl s h) := by
  induction l generalizing h with
  | nil => exact refl h
  | cons x l ih => exact (hs h x).trans (ih _)

end SameTable

theorem check_table (h : MultiwayHand) (ok : Bool) : SameTable h (h.check ok) := ⟨rfl, rfl, fun _ => rfl⟩

@[simp] theorem check_true (h : MultiwayHand) : h.check true = h := by simp [check]

theorem updateSeat_table (h : MultiwayHand) (p : SeatId) (f : MultiwaySeatState → MultiwaySeatState) :
    SameTable h (h.updateSeat p f) :=
  ⟨rfl, by simp [updateSeat], fun _ => by simp [updateSeat]⟩

theorem seat_updateSeat_self (hp : occupiedIn h.seats p = true) : (h.updateSeat p f).seat p = f (h.seat p) :=
  seatOf_modifySeat_self hp

theorem seat_updateSeat_ne (hq : q ≠ p) : (h.updateSeat p f).seat q = h.seat q := seatOf_modifySeat_ne hq

theorem panicked_updateSeat (hp : occupiedIn h.seats p = true) : (h.updateSeat p f).panicked = h.panicked := by
  simp [updateSeat, hp]

theorem mem_occupiedSeats (hlen : h.seats.length = h.tableSize.get) : p ∈ h.occupiedSeats ↔ occupiedIn h.seats p = true := by
  simp only [occupiedSeats, List.mem_filter, TableSize.mem_seats, and_iff_right_iff_imp]
  intro hp
  rw [← hlen]; exact lt_of_occupiedIn hp

theorem nodup_occupiedSeats (h : MultiwayHand) : h.occupiedSeats.Nodup := h.tableSize.nodup_seats.filter _

theorem sumSeats_add (h : MultiwayHand) (f g : MultiwaySeatState → Nat) :
    h.sumSeats (fun st => f st + g st) = h.sumSeats f + h.sumSeats g := List.sum_map_add

theorem le_sumSeats (g : MultiwaySeatState → Nat) (hp : p ∈ h.occupiedSeats) : g (h.seat p) ≤ h.sumSeats g :=
  List.le_sum_of_mem (List.mem_map_of_mem hp)

/-! ## The same write at every seat -/

theorem updateOccupied_table (h : MultiwayHand) (f : MultiwaySeatState → MultiwaySeatState) :
    SameTable h (h.updateOccupied f) :=
  SameTable.foldl (fun h p => updateSeat_table h p f) _ h

theorem foldl_updateSeat {l : List SeatId} (hn : l.Nodup) (hl : ∀ p ∈ l, occupiedIn h.seats p = true) :
    (∀ p, (l.foldl (fun h p => h.updateSeat p f) h).seat p = if p ∈ l then f (h.seat p) else h.seat p) ∧
      (l.foldl (fun h p => h.updateSeat p f) h).panicked = h.panicked := by
  induction l generalizing h with
  | nil => simp
  | cons q l ih =>
    obtain ⟨hq, hn⟩ := List.nodup_cons.mp hn
    have hocc := hl q List.mem_cons_self
    obtain ⟨hseat, hpan⟩ := ih (h := h.updateSeat q f) hn fun p hp => by
      rw [(updateSeat_table h q f).occupied]; exact hl p (List.mem_cons_of_mem _ hp)
    refine ⟨fun p => ?_, by rw [List.foldl_cons, hpan, panicked_updateSeat hocc]⟩
    rw [List.foldl_cons, hseat p]
    by_cases e : p = q
    · subst e; simp [hq, seat_updateSeat_self hocc]
    · simp [e, seat_updateSeat_ne e]

section len
variable (hlen : h.seats.length = h.tableSize.get)
include hlen

theorem seat_updateOccupied (hp : occupiedIn h.seats p = true) : (h.updateOccupied f).seat p = f (h.seat p) := by
  have := (foldl_updateSeat (f := f) (nodup_occupiedSeats h) fun p hp => (mem_occupiedSeats hlen).mp hp).1 p
  rwa [if_pos ((mem_occupiedSeats hlen).mpr hp)] at this

theorem panicked_updateOccupied : (h.updateOccupied f).panicked = h.panicked :=
  (foldl_updateSeat (nodup_occupiedSeats h) fun _ hp => (mem_occupiedSeats hlen).mp hp).2

end len

/-! ## Chips put in -/

theorem commitChips_table (h : MultiwayHand) (p : SeatId) (n : Nat) : SameTable h (h.commitChips p n) :=
  (check_table h _).trans (updateSeat_table _ p _)

theorem commitDeadChips_table (h : MultiwayHand) (p : SeatId) (n : Nat) : SameTable h (h.commitDeadChips p n) :=
  (check_table h _).trans (updateSeat_table _ p _)

/-- A seat's books once it has put `n` chips in. -/
def paid (st : MultiwaySeatState) (n : Nat) : MultiwaySeatState :=
  { st with
    stack := st.stack - n
    streetContribution := st.streetContribution + n
    handContribution := st.handContribution + n
    participation := if st.stack - n = 0 then .allIn else st.participation }

theorem seat_commitChips_self (hp : occupiedIn h.seats p = true) (n : Nat) :
    (h.commitChips p n).seat p = paid (h.seat p) (min n (h.seat p).stack) :=
  seat_updateSeat_self (h := h.check _) hp

theorem seat_commitChips_ne (hq : q ≠ p) (n : Nat) : (h.commitChips p n).seat q = h.seat q :=
  seat_updateSeat_ne (h := h.check _) hq

theorem seat_commitDeadChips_self (hp : occupiedIn h.seats p = true) (n : Nat) :
    (h.commitDeadChips p n).seat p =
      { paid (h.seat p) (min n (h.seat p).stack) with streetContribution := (h.seat p).streetContribution } :=
  seat_updateSeat_self (h := h.check _) hp

theorem seat_commitDeadChips_ne (hq : q ≠ p) (n : Nat) : (h.commitDeadChips p n).seat q = h.seat q :=
  seat_updateSeat_ne (h := h.check _) hq

/-- Putting in chips overflows nothing while the seat's chips fit `u32`. -/
theorem panicked_commitChips (hp : occupiedIn h.seats p = true) (n : Nat)
    (hle : (h.seat p).streetContribution ≤ (h.seat p).handContribution)
    (hfit : (h.seat p).stack + (h.seat p).handContribution ≤ u32Max) : (h.commitChips p n).panicked = h.panicked := by
  have hmin : min n (h.seat p).stack ≤ (h.seat p).stack := Nat.min_le_right ..
  have hfits : (fitsU32 ((h.seat p).streetContribution + min n (h.seat p).stack) &&
      fitsU32 ((h.seat p).handContribution + min n (h.seat p).stack)) = true := by
    simp only [fitsU32, Bool.and_eq_true, decide_eq_true_eq]; omega
  simp only [commitChips, hfits, check_true]
  exact panicked_updateSeat hp

theorem panicked_commitDeadChips (hp : occupiedIn h.seats p = true) (n : Nat)
    (hfit : (h.seat p).stack + (h.seat p).handContribution ≤ u32Max) : (h.commitDeadChips p n).panicked = h.panicked := by
  have hmin : min n (h.seat p).stack ≤ (h.seat p).stack := Nat.min_le_right ..
  have hfits : fitsU32 ((h.seat p).handContribution + min n (h.seat p).stack) = true := by
    simp only [fitsU32, decide_eq_true_eq]; omega
  simp only [commitDeadChips, hfits, check_true]
  exact panicked_updateSeat hp

/-! ## Chips paid out -/

theorem credit_table (h : MultiwayHand) (p : SeatId) (n : Nat) : SameTable h (h.credit p n) :=
  (check_table h _).trans (updateSeat_table _ p _)

/-- The payments of a list, in order. -/
def creditAll (h : MultiwayHand) (entries : List (SeatId × Nat)) : MultiwayHand :=
  entries.foldl (fun h entry => h.credit entry.1 entry.2) h

theorem creditAll_table (h : MultiwayHand) (entries : List (SeatId × Nat)) : SameTable h (h.creditAll entries) := by
  have hstep : ∀ (h : MultiwayHand) (entry : SeatId × Nat), SameTable h (h.credit entry.1 entry.2) :=
    fun h entry => credit_table h entry.1 entry.2
  have hall := SameTable.foldl hstep entries h
  exact hall

theorem seat_credit (hq : occupiedIn h.seats q = true) (n : Nat) :
    (h.credit p n).seat q = { h.seat q with stack := (h.seat q).stack + if p = q then n else 0 } := by
  by_cases e : q = p
  · subst e; rw [if_pos rfl]; exact seat_updateSeat_self (h := h.check _) hq
  · rw [if_neg (Ne.symm e)]; exact seat_updateSeat_ne (h := h.check _) e

theorem seat_creditAll (hq : occupiedIn h.seats q = true) (entries : List (SeatId × Nat)) :
    (h.creditAll entries).seat q = { h.seat q with stack := (h.seat q).stack + Ledger.credited entries q } := by
  induction entries generalizing h with
  | nil => rfl
  | cons entry entries ih =>
    rw [creditAll, List.foldl_cons, ← creditAll, ih (by rw [(credit_table _ _ _).occupied]; exact hq), seat_credit hq]
    simp [Nat.add_assoc]

/-- Paying out overflows nothing when every payee is seated and ends within `u32`. -/
theorem panicked_creditAll {entries : List (SeatId × Nat)} (hseat : ∀ e ∈ entries, occupiedIn h.seats e.1 = true)
    (hfit : ∀ p, occupiedIn h.seats p = true → (h.seat p).stack + Ledger.credited entries p ≤ u32Max) :
    (h.creditAll entries).panicked = h.panicked := by
  induction entries generalizing h with
  | nil => rfl
  | cons entry entries ih =>
    have hocc := hseat entry List.mem_cons_self
    have hone : (h.credit entry.1 entry.2).panicked = h.panicked := by
      have := hfit entry.1 hocc
      have hfits : fitsU32 ((h.seat entry.1).stack + entry.2) = true := by
        simp only [Ledger.credited_cons, if_true] at this
        simp only [fitsU32, decide_eq_true_eq]; omega
      simp only [credit, hfits, check_true]
      exact panicked_updateSeat hocc
    rw [creditAll, List.foldl_cons, ← creditAll, ih, hone]
    · intro e he
      rw [(credit_table _ _ _).occupied]; exact hseat e (List.mem_cons_of_mem _ he)
    · intro p hp
      rw [(credit_table _ _ _).occupied] at hp
      have := hfit p hp
      rw [seat_credit hp]
      simp only [Ledger.credited_cons] at this
      simpa [Nat.add_assoc] using this

end table

end MultiwayHand

end OpenFelt
