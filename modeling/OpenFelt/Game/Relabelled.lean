/-
  OpenFelt.Game.Relabelled — one hand at two sets of seats.

  `Relabelled π h h'` says that `h'` is the hand `h` with every player moved to the seat `π`
  names: the ring of occupied seats is the same, each seat's state moves with it, and every seat
  number in the hand's books is renamed. What the engine keeps in seat order (a pot's eligible
  seats, the snapshot of contributions) is related as a set. Proved here: everything a hand says
  about its seats agrees, a command is judged alike, chips move alike and pots are cut alike.
-/

import OpenFelt.Game.Runs
import OpenFelt.Game.Payouts
import OpenFelt.Game.Seated
import OpenFelt.Game.SameRing

namespace OpenFelt

variable {π : Equiv.Perm SeatId}

/-! ## Two hands -/

def MultiwayActionRecord.relabel (π : Equiv.Perm SeatId) (record : MultiwayActionRecord) : MultiwayActionRecord :=
  { record with seat := π record.seat }

def Contribution.relabel (π : Equiv.Perm SeatId) (entry : Contribution) : Contribution := { entry with seat := π entry.seat }

def ReturnedExcess.relabel (π : Equiv.Perm SeatId) (returned : ReturnedExcess) : ReturnedExcess :=
  { returned with seat := π returned.seat }

def SeatPayout.relabel (π : Equiv.Perm SeatId) (payout : SeatPayout) : SeatPayout := { payout with seat := π payout.seat }

def RevealedHand.relabel (π : Equiv.Perm SeatId) (shown : RevealedHand) : RevealedHand := { shown with seat := π shown.seat }

def ShowdownProgress.relabel (π : Equiv.Perm SeatId) (progress : ShowdownProgress) : ShowdownProgress :=
  { progress with order := progress.order.map π, mucked := progress.mucked.map π }

/-- A pot's eligible seats are a set. -/
structure SamePot (π : Equiv.Perm SeatId) (pot pot' : Pot) : Prop where
  amount : pot'.amount = pot.amount
  eligible : pot'.eligible.Perm (pot.eligible.map π)

/-- Winners and odd chips go in order, the eligible seats are a set. -/
structure SameAward (π : Equiv.Perm SeatId) (award award' : PotAward) : Prop where
  potIndex : award'.potIndex = award.potIndex
  amount : award'.amount = award.amount
  eligible : award'.eligible.Perm (award.eligible.map π)
  winners : award'.winners = award.winners.map π
  payouts : award'.payouts = award.payouts.map (·.relabel π)

/-- The hand `h'` is the hand `h` played at other seats. -/
structure Relabelled (π : Equiv.Perm SeatId) (h h' : MultiwayHand) : Prop where
  ring : SameRing π h.tableSize h'.tableSize h.button (occupiedIn h.seats) (occupiedIn h'.seats)
  seat : ∀ p, h'.seat (π p) = h.seat p
  phase : h'.phase = h.phase
  board : h'.board = h.board
  button : h'.button = π h.button
  smallBlind : h'.smallBlind = π h.smallBlind
  bigBlind : h'.bigBlind = π h.bigBlind
  blindValues : h'.blindValues = h.blindValues
  toAct : h'.toAct = h.toAct.map π
  currentWager : h'.currentWager = h.currentWager
  lastFullRaiseSize : h'.lastFullRaiseSize = h.lastFullRaiseSize
  actionHistory : h'.actionHistory = h.actionHistory.map (·.relabel π)
  pots : List.Forall₂ (SamePot π) h.pots h'.pots
  potsSeated : ∀ pot ∈ h.pots, ∀ p ∈ pot.eligible, occupiedIn h.seats p = true
  returnedExcess : h'.returnedExcess = h.returnedExcess.map (·.relabel π)
  awards : List.Forall₂ (SameAward π) h.awards h'.awards
  revealedHands : h'.revealedHands = h.revealedHands.map (·.relabel π)
  settledContributions : h'.settledContributions.Perm (h.settledContributions.map (·.relabel π))
  showdownProgress : h'.showdownProgress = h.showdownProgress.map (·.relabel π)
  muckedHands : h'.muckedHands = h.muckedHands.map π
  alwaysShow : h'.alwaysShow = h.alwaysShow.map π
  pacedShowdown : h'.pacedShowdown = h.pacedShowdown
  evaluated : h'.showdownEvaluations.isEmpty = h.showdownEvaluations.isEmpty
  evaluationOf : ∀ p, h'.evaluationOf (π p) = h.evaluationOf p
  initialTotal : h'.initialTotal = h.initialTotal
  deck : h'.deck = h.deck
  panicked : h'.panicked = h.panicked

namespace Relabelled

open MultiwayHand

variable {h h' : MultiwayHand} {p : SeatId} {f : MultiwaySeatState → MultiwaySeatState}

theorem check (hr : Relabelled π h h') (ok : Bool) : Relabelled π (h.check ok) (h'.check ok) :=
  { hr with panicked := congrArg (· || !ok) hr.panicked }

theorem updateSeat (hr : Relabelled π h h') (p : SeatId) (f : MultiwaySeatState → MultiwaySeatState) :
    Relabelled π (h.updateSeat p f) (h'.updateSeat (π p) f) := by
  have hocc : occupiedIn (modifySeat h.seats p f) = occupiedIn h.seats := funext fun q => occupiedIn_modifySeat
  have hocc' : occupiedIn (modifySeat h'.seats (π p) f) = occupiedIn h'.seats := funext fun q => occupiedIn_modifySeat
  have hsame : occupiedIn h'.seats (π p) = occupiedIn h.seats p := hr.ring.same p
  have hseat : ∀ q, seatOf (modifySeat h'.seats (π p) f) (π q) = seatOf (modifySeat h.seats p f) q := by
    intro q
    by_cases e : q = p
    · subst e
      cases ho : occupiedIn h.seats q with
      | true => rw [seatOf_modifySeat_self ho, seatOf_modifySeat_self (hsame.trans ho)]; exact congrArg f (hr.seat q)
      | false =>
        rw [seatOf_vacant (occupiedIn_modifySeat.trans ho), seatOf_vacant (occupiedIn_modifySeat.trans (hsame.trans ho))]
    · rw [seatOf_modifySeat_ne e, seatOf_modifySeat_ne fun e' => e (π.injective e')]; exact hr.seat q
  have hring : SameRing π h.tableSize h'.tableSize h.button (occupiedIn (modifySeat h.seats p f))
      (occupiedIn (modifySeat h'.seats (π p) f)) := by rw [hocc, hocc']; exact hr.ring
  have hpots : ∀ pot ∈ h.pots, ∀ q ∈ pot.eligible, occupiedIn (modifySeat h.seats p f) q = true := by
    rw [hocc]; exact hr.potsSeated
  have hpanicked : (h'.panicked || !occupiedIn h'.seats (π p)) = (h.panicked || !occupiedIn h.seats p) := by
    rw [hsame, hr.panicked]
  exact { hr with ring := hring, seat := hseat, potsSeated := hpots, panicked := hpanicked }

/-! ### What the seats say -/

/-- The occupied seats, up to their order. -/
theorem occupiedSeats (hr : Relabelled π h h') : h'.occupiedSeats.Perm (h.occupiedSeats.map π) := hr.ring.seats

theorem mem_occupiedSeats (hr : Relabelled π h h') : p ∈ h.occupiedSeats ↔ occupiedIn h.seats p = true := hr.ring.mem_taken p

theorem filter_occupied (hr : Relabelled π h h') (f : MultiwaySeatState → Bool) :
    (h'.occupiedSeats.filter fun p => f (h'.seat p)).Perm ((h.occupiedSeats.filter fun p => f (h.seat p)).map π) := by
  have hall := hr.occupiedSeats.filter fun p => f (h'.seat p)
  rw [List.filter_map] at hall
  have hsame : ((fun p => f (h'.seat p)) ∘ π) = fun p => f (h.seat p) := funext fun p => congrArg f (hr.seat p)
  rwa [hsame] at hall

theorem map_occupied {α : Type} (hr : Relabelled π h h') (f : MultiwaySeatState → α) :
    (h'.occupiedSeats.map fun p => f (h'.seat p)).Perm (h.occupiedSeats.map fun p => f (h.seat p)) := by
  have hall := hr.occupiedSeats.map fun p => f (h'.seat p)
  rw [List.map_map] at hall
  have hsame : ((fun p => f (h'.seat p)) ∘ π) = fun p => f (h.seat p) := funext fun p => congrArg f (hr.seat p)
  rwa [hsame] at hall

theorem sumSeats (hr : Relabelled π h h') (f : MultiwaySeatState → Nat) : h'.sumSeats f = h.sumSeats f :=
  (hr.map_occupied f).sum_eq

theorem totalChips (hr : Relabelled π h h') : h'.totalChips = h.totalChips := by
  rw [MultiwayHand.totalChips, MultiwayHand.totalChips, hr.sumSeats, hr.sumSeats]

theorem potEligibleCount (hr : Relabelled π h h') : h'.potEligibleCount = h.potEligibleCount :=
  (hr.filter_occupied (·.eligibleForPot)).length_eq.trans (List.length_map _)

theorem any_occupied (hr : Relabelled π h h') (f : MultiwaySeatState → Bool) :
    (h'.occupiedSeats.any fun p => f (h'.seat p)) = h.occupiedSeats.any fun p => f (h.seat p) := by
  have hall := (hr.map_occupied f).any_eq (f := id)
  rwa [List.any_map, List.any_map] at hall

theorem anyAllIn (hr : Relabelled π h h') : h'.anyAllIn = h.anyAllIn := hr.any_occupied fun st => st.participation == .allIn

theorem bettingLocked (hr : Relabelled π h h') : h'.bettingLocked = h.bettingLocked := by
  have hcount := (hr.filter_occupied (·.canAct)).length_eq
  rw [List.length_map] at hcount
  rw [MultiwayHand.bettingLocked, MultiwayHand.bettingLocked, hcount]

theorem amountToCall (hr : Relabelled π h h') (p : SeatId) : h'.amountToCall (π p) = h.amountToCall p := by
  rw [MultiwayHand.amountToCall, MultiwayHand.amountToCall, hr.seat, hr.currentWager]

theorem raiseReopenedFor (hr : Relabelled π h h') (p : SeatId) : h'.raiseReopenedFor (π p) = h.raiseReopenedFor p := by
  rw [MultiwayHand.raiseReopenedFor, MultiwayHand.raiseReopenedFor, hr.seat, hr.currentWager, hr.lastFullRaiseSize]

theorem needsAction (hr : Relabelled π h h') (p : SeatId) : h'.needsAction (π p) = h.needsAction p := by
  rw [MultiwayHand.needsAction, MultiwayHand.needsAction, hr.seat, hr.currentWager]

theorem bettingRoundComplete (hr : Relabelled π h h') : h'.bettingRoundComplete = h.bettingRoundComplete := by
  have hlive := hr.filter_occupied (·.canAct)
  unfold MultiwayHand.bettingRoundComplete
  match hl : h.occupiedSeats.filter fun p => (h.seat p).canAct with
  | [] =>
    rw [hl] at hlive
    rw [List.perm_nil.mp hlive]
  | [only] =>
    rw [hl] at hlive
    rw [List.perm_singleton.mp hlive]
    dsimp only
    rw [hr.seat, hr.currentWager]
  | a :: b :: rest =>
    rw [hl] at hlive
    have hall := hlive.all_eq (f := fun p => !h'.needsAction p)
    rw [List.all_map] at hall
    have hsame : ((fun p => !h'.needsAction p) ∘ π) = fun p => !h.needsAction p :=
      funext fun p => congrArg (!·) (hr.needsAction p)
    rw [hsame] at hall
    match hl' : h'.occupiedSeats.filter fun p => (h'.seat p).canAct with
    | [] | [_] =>
      rw [hl'] at hlive
      cases hlive.length_eq
    | a' :: b' :: rest' =>
      rw [hl'] at hall
      exact hall

/-- A search for a seat in a state finds the seat in that state. -/
theorem nextIn (hr : Relabelled π h h') {start : SeatId} (hs : occupiedIn h.seats start = true) {f f' : SeatId → Bool}
    (hsame : ∀ p, f' (π p) = f p) :
    ((clockwiseFrom h'.tableSize (π start) 1 h'.tableSize.get).find? fun p => occupiedIn h'.seats p && f' p) =
      ((clockwiseFrom h.tableSize start 1 h.tableSize.get).find? fun p => occupiedIn h.seats p && f p).map π :=
  hr.ring.find hs (fun p hp => (Bool.and_eq_true _ _ ▸ hp).1) fun p => by rw [hr.ring.same, hsame]

theorem firstNeedingFrom (hr : Relabelled π h h') {start : SeatId} (hs : occupiedIn h.seats start = true) :
    h'.firstNeedingFrom (π start) = (h.firstNeedingFrom start).map π :=
  hr.ring.find_here hs (fun p hp => (Bool.and_eq_true _ _ ▸ hp).1) fun p => by rw [hr.ring.same, hr.needsAction]

theorem nextNeedingAfter (hr : Relabelled π h h') {after : SeatId} (hs : occupiedIn h.seats after = true) :
    h'.nextNeedingAfter (π after) = (h.nextNeedingAfter after).map π := hr.nextIn hs hr.needsAction

theorem nextLiveAfter (hr : Relabelled π h h') {after : SeatId} (hs : occupiedIn h.seats after = true) :
    h'.nextLiveAfter (π after) = (h.nextLiveAfter after).map π := hr.nextIn hs fun p => congrArg _ (hr.seat p)


theorem any_seat (hr : Relabelled π h h') {g g' : SeatId → Bool} (hsame : ∀ p, g' (π p) = g p) :
    h'.occupiedSeats.any g' = h.occupiedSeats.any g := by
  rw [hr.occupiedSeats.any_eq, List.any_map]
  exact congrArg _ (funext hsame)

theorem firstPostflop (hr : Relabelled π h h') : h'.firstPostflop = h.firstPostflop.map π := by
  have hnext := hr.nextLiveAfter hr.ring.held
  rw [← hr.button] at hnext
  rw [MultiwayHand.firstPostflop, MultiwayHand.firstPostflop, hnext]
  cases hlive : h.nextLiveAfter h.button with
  | some p => rfl
  | none =>
    -- nobody can act, so the search by number finds nobody either
    have hnone : ∀ p ∈ h.occupiedSeats, (h.seat p).canAct = false := by
      intro p hp
      have hocc := hr.mem_occupiedSeats.mp hp
      have hnot := find_clockwise_none (hr.ring.inside _ hr.ring.held) hlive p (hr.ring.inside _ hocc)
      rwa [hocc, Bool.true_and] at hnot
    have hnone' : ∀ q ∈ h'.occupiedSeats, (h'.seat q).canAct = false := by
      intro q hq
      obtain ⟨p, hp, rfl⟩ := List.mem_map.mp (hr.occupiedSeats.subset hq)
      rw [hr.seat]
      exact hnone p hp
    have hfind : h.occupiedSeats.find? (fun p => (h.seat p).canAct) = none :=
      List.find?_eq_none.mpr fun p hp => by rw [hnone p hp]; decide
    have hfind' : h'.occupiedSeats.find? (fun q => (h'.seat q).canAct) = none :=
      List.find?_eq_none.mpr fun q hq => by rw [hnone' q hq]; decide
    rw [hfind, hfind']
    rfl

/-! ### Legality -/

theorem toAct_eq (hr : Relabelled π h h') (p : SeatId) : h'.toAct = some (π p) ↔ h.toAct = some p := by
  rw [hr.toAct, Option.map_eq_some_iff]
  exact ⟨fun ⟨q, hq, he⟩ => π.injective he ▸ hq, fun hp => ⟨p, hp, rfl⟩⟩

theorem legalActionsFor (hr : Relabelled π h h') (p : SeatId) : h'.legalActionsFor (π p) = h.legalActionsFor p := by
  have hturn : (h'.toAct != some (π p)) = (h.toAct != some p) := by
    rw [Bool.eq_iff_iff, bne_iff_ne, bne_iff_ne, Ne, Ne, hr.toAct_eq]
  have hother : (h'.occupiedSeats.any fun other => other != π p && (h'.seat other).canAct) =
      h.occupiedSeats.any fun other => other != p && (h.seat other).canAct :=
    hr.any_seat fun q => by
      have hne : (π q != π p) = (q != p) := by rw [Bool.eq_iff_iff, bne_iff_ne, bne_iff_ne, Ne, Ne, π.injective.eq_iff]
      rw [hne, hr.seat]
  unfold MultiwayHand.legalActionsFor
  rw [hturn, hr.phase, hr.seat]
  dsimp only
  rw [hother, hr.amountToCall, hr.raiseReopenedFor, hr.currentWager, hr.lastFullRaiseSize, hr.blindValues]

theorem validateAction (hr : Relabelled π h h') (p : SeatId) (action : Action) :
    h'.validateAction (π p) action = h.validateAction p action := by
  unfold MultiwayHand.validateAction
  rw [hr.legalActionsFor, hr.seat, hr.currentWager]

end Relabelled

def SeatCommand.relabel (π : Equiv.Perm SeatId) (command : SeatCommand) : SeatCommand :=
  { command with seat := π command.seat }

def CommandError.relabel (π : Equiv.Perm SeatId) : CommandError → CommandError
  | .handNotActive => .handNotActive
  | .seatNotOccupied seat => .seatNotOccupied (π seat)
  | .seatNotEligible seat => .seatNotEligible (π seat)
  | .outOfTurn expected actual => .outOfTurn (π expected) (π actual)
  | .illegalAction error => .illegalAction error

namespace Relabelled

open MultiwayHand

variable {h h' : MultiwayHand} {p : SeatId} {f : MultiwaySeatState → MultiwaySeatState}

theorem seatIn_eq (hr : Relabelled π h h') (p : SeatId) : seatIn h'.seats (π p) = seatIn h.seats p := by
  have hocc : (seatIn h'.seats (π p)).isSome = (seatIn h.seats p).isSome := hr.ring.same p
  have hseat : (seatIn h'.seats (π p)).getD .vacant = (seatIn h.seats p).getD .vacant := hr.seat p
  cases hp : seatIn h.seats p with
  | none =>
    rw [hp] at hocc
    exact Option.isNone_iff_eq_none.mp (Option.isSome_eq_false_iff.mp hocc)
  | some st =>
    rw [hp] at hocc hseat
    obtain ⟨st', hst'⟩ := Option.isSome_iff_exists.mp hocc
    rw [hst'] at hseat ⊢
    exact congrArg some hseat

/-- A command is judged alike at either seat. -/
theorem validateCommand (hr : Relabelled π h h') (command : SeatCommand) :
    h'.validateCommand (command.relabel π) = (h.validateCommand command).mapError (·.relabel π) := by
  unfold MultiwayHand.validateCommand
  rw [hr.phase]
  split
  · rfl
  rw [show (command.relabel π).seat = π command.seat from rfl, hr.seatIn_eq]
  cases seatIn h.seats command.seat with
  | none => rfl
  | some state =>
    dsimp only
    split
    · rfl
    rw [hr.toAct]
    cases h.toAct with
    | none => rfl
    | some expected =>
      rw [Option.map_some]
      dsimp only
      by_cases hturn : command.seat = expected
      · rw [if_neg (not_not.mpr hturn), if_neg (not_not.mpr (congrArg π hturn)), hr.validateAction,
          show (command.relabel π).action = command.action from rfl]
        cases h.validateAction command.seat command.action <;> rfl
      · rw [if_pos hturn, if_pos fun he => hturn (π.injective he)]
        rfl

/-! ### Chips -/

theorem commitChips (hr : Relabelled π h h') (p : SeatId) (n : Nat) :
    Relabelled π (h.commitChips p n) (h'.commitChips (π p) n) := by
  unfold MultiwayHand.commitChips
  rw [hr.seat]
  exact (hr.check _).updateSeat p _

theorem commitDeadChips (hr : Relabelled π h h') (p : SeatId) (n : Nat) :
    Relabelled π (h.commitDeadChips p n) (h'.commitDeadChips (π p) n) := by
  unfold MultiwayHand.commitDeadChips
  rw [hr.seat]
  exact (hr.check _).updateSeat p _

theorem commitTo (hr : Relabelled π h h') (p : SeatId) (target : Nat) :
    Relabelled π (h.commitTo p target) (h'.commitTo (π p) target) := by
  unfold MultiwayHand.commitTo
  rw [hr.seat]
  exact hr.commitChips p _

theorem credit (hr : Relabelled π h h') (p : SeatId) (n : Nat) : Relabelled π (h.credit p n) (h'.credit (π p) n) := by
  unfold MultiwayHand.credit
  rw [hr.seat]
  exact (hr.check _).updateSeat p _

/-- Steps that agree seat by seat agree over a list of seats. -/
theorem foldl {α α' : Type} {s : MultiwayHand → α → MultiwayHand} {s' : MultiwayHand → α' → MultiwayHand} {g : α → α'}
    (hstep : ∀ k k' a, Relabelled π k k' → Relabelled π (s k a) (s' k' (g a))) (hr : Relabelled π h h') (l : List α) :
    Relabelled π (l.foldl s h) ((l.map g).foldl s' h') := by
  induction l generalizing h h' with
  | nil => exact hr
  | cons a l ih => exact ih (hstep h h' a hr)


/-! ### The same write at every seat -/

theorem modifySeat_comm {seats : List (Option MultiwaySeatState)} {a b : SeatId} (hne : a ≠ b)
    (f g : MultiwaySeatState → MultiwaySeatState) :
    modifySeat (modifySeat seats a f) b g = modifySeat (modifySeat seats b g) a f := by
  have hval : a.val ≠ b.val := fun e => hne (Fin.ext e)
  refine List.ext_getElem? fun i => ?_
  simp only [modifySeat, List.getElem?_modify]
  by_cases ha : a.val = i
  · have hb : ¬ b.val = i := fun e => hval (ha.trans e.symm)
    simp only [ha, hb, if_true, if_false, Option.map_eq_map, Option.map_id']
  · simp only [ha, if_false, Option.map_eq_map, Option.map_id']

theorem updateSeat_comm (h : MultiwayHand) (a b : SeatId) (f : MultiwaySeatState → MultiwaySeatState) :
    (h.updateSeat a f).updateSeat b f = (h.updateSeat b f).updateSeat a f := by
  by_cases hne : a = b
  · rw [hne]
  · simp only [MultiwayHand.updateSeat, occupiedIn_modifySeat, modifySeat_comm hne, Bool.or_right_comm]

theorem commitDeadChips_comm (h : MultiwayHand) (a b : SeatId) (n : Nat) :
    (h.commitDeadChips a n).commitDeadChips b n = (h.commitDeadChips b n).commitDeadChips a n := by
  by_cases hne : a = b
  · rw [hne]
  · simp only [MultiwayHand.commitDeadChips, MultiwayHand.check, MultiwayHand.updateSeat, occupiedIn_modifySeat,
      MultiwayHand.seat, seatOf_modifySeat_ne hne, seatOf_modifySeat_ne (Ne.symm hne), modifySeat_comm hne]
    congr 1
    ac_rfl

theorem updateOccupied (hr : Relabelled π h h') (f : MultiwaySeatState → MultiwaySeatState) :
    Relabelled π (h.updateOccupied f) (h'.updateOccupied f) := by
  have hperm := hr.occupiedSeats.foldl_eq' (f := fun h seat => h.updateSeat seat f)
    (fun a _ b _ k => updateSeat_comm k a b f) h'
  rw [MultiwayHand.updateOccupied, MultiwayHand.updateOccupied, hperm]
  exact foldl (fun k k' p hk => hk.updateSeat p f) hr _

theorem clearContributions (hr : Relabelled π h h') : Relabelled π h.clearContributions h'.clearContributions :=
  hr.updateOccupied _

theorem postAntes (hr : Relabelled π h h') : Relabelled π h.postAntes h'.postAntes := by
  have hperm := hr.occupiedSeats.foldl_eq' (f := fun hand seat => hand.commitDeadChips seat h.blindValues.ante)
    (fun a _ b _ k => commitDeadChips_comm k a b _) h'
  rw [MultiwayHand.postAntes, MultiwayHand.postAntes, hr.blindValues, hperm]
  split
  · exact foldl (fun k k' p hk => hk.commitDeadChips p _) hr _
  · exact hr

theorem contributionSnapshot (hr : Relabelled π h h') :
    h'.contributionSnapshot.Perm (h.contributionSnapshot.map (·.relabel π)) := by
  have hall := hr.occupiedSeats.map fun p => (⟨p, (h'.seat p).handContribution, (h'.seat p).eligibleForPot⟩ : Contribution)
  rw [List.map_map] at hall
  rw [MultiwayHand.contributionSnapshot, MultiwayHand.contributionSnapshot, List.map_map]
  have hsame : (fun p => (⟨p, (h'.seat p).handContribution, (h'.seat p).eligibleForPot⟩ : Contribution)) ∘ π =
      Contribution.relabel π ∘ fun p => ⟨p, (h.seat p).handContribution, (h.seat p).eligibleForPot⟩ :=
    funext fun p => by simp only [Function.comp_apply, hr.seat, Contribution.relabel]
  rwa [hsame] at hall

end Relabelled

/-! ### Pots -/

section pots
variable {entries entries' : List Contribution}

/-- The same contributions up to the order and the seats. -/
abbrev SameEntries (π : Equiv.Perm SeatId) (entries entries' : List Contribution) : Prop :=
  entries'.Perm (entries.map (·.relabel π))

theorem SameEntries.filter (hs : SameEntries π entries entries') (f : Contribution → Bool)
    (hf : ∀ e : Contribution, f (e.relabel π) = f e) : SameEntries π (entries.filter f) (entries'.filter f) := by
  have hall := List.Perm.filter f hs
  rw [List.filter_map] at hall
  rwa [show f ∘ (·.relabel π) = f from funext hf] at hall

theorem SameEntries.potLevels (hs : SameEntries π entries entries') : potLevels entries' = potLevels entries := by
  have hpositive := (hs.filter (fun entry => 0 < entry.amount) fun _ => rfl).map (·.amount)
  rw [List.map_map] at hpositive
  have hamount : (fun entry : Contribution => entry.amount) ∘ Contribution.relabel π = fun entry => entry.amount := rfl
  rw [show (fun entry : Contribution => entry.relabel π) = Contribution.relabel π from rfl, hamount] at hpositive
  have hsorted := List.Perm.eq_of_pairwise (fun a b _ _ hab hba => Nat.le_antisymm hab hba)
    (List.pairwise_insertionSort (· ≤ ·) _) (List.pairwise_insertionSort (· ≤ ·) _)
    ((List.perm_insertionSort (· ≤ ·) _).trans (hpositive.trans (List.perm_insertionSort (· ≤ ·) _).symm))
  rw [OpenFelt.potLevels, OpenFelt.potLevels, hsorted]

/-- The layers are cut alike. -/
theorem SameEntries.buildLayers (hs : SameEntries π entries entries') (previous : Nat) (levels : List Nat) :
    List.Forall₂ (SamePot π) (buildLayers entries previous levels).pots (buildLayers entries' previous levels).pots ∧
      (buildLayers entries' previous levels).returned = (buildLayers entries previous levels).returned.map (·.relabel π) := by
  induction levels generalizing previous with
  | nil => exact ⟨.nil, rfl⟩
  | cons level levels ih =>
    obtain ⟨hpots, hreturned⟩ := ih level
    have hreach : SameEntries π (reaching entries level) (reaching entries' level) :=
      hs.filter (fun entry => level ≤ entry.amount) fun _ => rfl
    rw [OpenFelt.buildLayers, OpenFelt.buildLayers]
    rw [show (entries.filter fun entry => level ≤ entry.amount) = reaching entries level from rfl,
      show (entries'.filter fun entry => level ≤ entry.amount) = reaching entries' level from rfl]
    have hcount := hreach.length_eq
    rw [List.length_map] at hcount
    rcases hl : reaching entries level with _ | ⟨only, _ | ⟨next, rest⟩⟩
    · rw [hl] at hreach
      rw [List.perm_nil.mp hreach]
      exact ⟨by simpa using hpots, by simpa using hreturned⟩
    · rw [hl] at hreach
      rw [List.perm_singleton.mp hreach]
      exact ⟨hpots, by simp only [List.length_singleton, List.map_cons, hreturned]; rfl⟩
    · rw [hl] at hreach hcount
      have heligible := (hreach.filter (·.eligible) fun _ => rfl).map (·.seat)
      rw [List.map_map] at heligible
      rcases hl' : reaching entries' level with _ | ⟨only', _ | ⟨next', rest'⟩⟩
      · rw [hl'] at hcount; cases hcount
      · rw [hl'] at hcount; cases hcount
      · rw [hl'] at hcount heligible
        dsimp only
        rw [hcount]
        split
        · refine ⟨.cons ⟨rfl, ?_⟩ hpots, hreturned⟩
          dsimp only
          rw [List.map_map]
          exact heligible
        · exact ⟨hpots, hreturned⟩

theorem SameEntries.layersInRange (hs : SameEntries π entries entries') (previous : Nat) (levels : List Nat) :
    layersInRange entries' previous levels = layersInRange entries previous levels := by
  induction levels generalizing previous with
  | nil => rfl
  | cons level levels ih =>
    have hcount := (hs.filter (fun entry => level ≤ entry.amount) fun _ => rfl).length_eq
    rw [List.length_map] at hcount
    rw [OpenFelt.layersInRange, OpenFelt.layersInRange, hcount, ih]

theorem SameEntries.buildPots (hs : SameEntries π entries entries') :
    List.Forall₂ (SamePot π) (buildPots entries).pots (buildPots entries').pots ∧
      (buildPots entries').returned = (buildPots entries).returned.map (·.relabel π) := by
  rw [OpenFelt.buildPots, OpenFelt.buildPots, hs.potLevels]
  exact hs.buildLayers 0 _

end pots

end OpenFelt
