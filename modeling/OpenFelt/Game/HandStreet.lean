/-
  OpenFelt.Game.HandStreet — the hand's books as a street of betting.

  `street` forgets everything but the chips, the statuses and the marks. An action that
  `validate_action` accepts is one of the turns `Betting.Allowed` describes, and
  `recordAction` carries it out (`recordAction_spec`).
-/

import OpenFelt.Game.Books
import OpenFelt.Lib.Betting

namespace OpenFelt

open Betting

def HandParticipation.status : HandParticipation → Status
  | notDealt => .absent
  | live => .live
  | folded => .folded
  | allIn => .allIn

/-- What an action's kind says of the wager it leaves, `f` being the wager and the least
    raise it faced: a bet or a raise is a full one, only an all-in can be less. -/
def Action.Lifts (f : Nat × Nat) (wager : Nat) : Action → Prop
  | bet _ | raise _ => f.2 ≤ wager - f.1
  | allIn _ => True
  | fold | check | call _ => wager = f.1

namespace MultiwayHand

def street (h : MultiwayHand) : Street SeatId where
  stack p := (h.seat p).stack
  bet p := (h.seat p).streetContribution
  prior p := (h.seat p).handContribution - (h.seat p).streetContribution
  status p := (h.seat p).participation.status
  mark p := (h.seat p).lastActionWager
  wager := h.currentWager
  raise := h.lastFullRaiseSize

/-- The books are in order: one place for each seat of the table, what is put in on a street
    counted in the hand, each seat's chips within `u32`, everybody seated dealt in. -/
structure Booked (h : MultiwayHand) : Prop where
  length : h.seats.length = h.tableSize.get
  street_le : ∀ p, (h.seat p).streetContribution ≤ (h.seat p).handContribution
  fits : ∀ p, (h.seat p).stack + (h.seat p).handContribution ≤ u32Max
  dealt : ∀ p, occupiedIn h.seats p = true → h.street.status p ≠ .absent

section reads
variable {h : MultiwayHand} {p : SeatId}

theorem status_live : h.street.status p = .live ↔ (h.seat p).participation = .live := by
  simp only [street]; cases (h.seat p).participation <;> simp [HandParticipation.status]

theorem inHand_iff : h.street.InHand p ↔ (h.seat p).eligibleForPot = true := by
  simp only [Street.InHand, street, MultiwaySeatState.eligibleForPot]
  cases (h.seat p).participation <;> simp [HandParticipation.status]

theorem status_folded : h.street.status p = .folded ↔ (h.seat p).participation = .folded := by
  simp only [street]; cases (h.seat p).participation <;> simp [HandParticipation.status]

/-- Whoever takes part sits at the table. -/
theorem occupied_of_status (hp : h.street.status p ≠ .absent) : occupiedIn h.seats p = true := by
  by_contra hocc
  refine hp ?_
  simp only [street, seatOf_vacant (Bool.not_eq_true _ ▸ hocc)]
  rfl

theorem occupied_of_eligible (hp : (h.seat p).eligibleForPot = true) : occupiedIn h.seats p = true :=
  occupied_of_status fun e => by rcases inHand_iff.mpr hp with h' | h' <;> rw [e] at h' <;> cases h'

theorem canAct_iff {least : Nat} (hs : Sound least h.street) : (h.seat p).canAct = true ↔ h.street.status p = .live := by
  rw [status_live]
  simp only [MultiwaySeatState.canAct, Bool.and_eq_true, decide_eq_true_eq, beq_iff_eq, and_iff_right_iff_imp]
  exact fun hl => hs.live_stack p (status_live.mpr hl)

theorem needsAction_iff {least : Nat} (hs : Sound least h.street) : h.needsAction p = true ↔ h.street.Asked p := by
  simp only [needsAction, Bool.and_eq_true, canAct_iff hs, Bool.or_eq_true, Option.isNone_iff_eq_none, decide_eq_true_eq,
    Street.Asked]
  rfl

theorem raiseReopenedFor_iff : h.raiseReopenedFor p = true ↔ h.street.Open p := by
  simp only [raiseReopenedFor, Street.Open, street]
  cases (h.seat p).lastActionWager <;> simp

end reads

/-! ## What `validate_action` accepts -/

/-- A turn is open to `p`: the hand takes actions and waits for `p`, who can act. -/
structure OnTurn (h : MultiwayHand) (p : SeatId) : Prop where
  accepts : h.phase.acceptsActions = true
  toAct : h.toAct = some p
  canAct : (h.seat p).canAct = true

theorem validateCommand_ok {h : MultiwayHand} {command : SeatCommand} (hv : h.validateCommand command = .ok ()) :
    h.OnTurn command.seat ∧ h.validateAction command.seat command.action = .ok () := by
  simp only [validateCommand] at hv
  split at hv
  · cases hv
  rename_i hphase
  split at hv
  · cases hv
  rename_i state hstate
  split at hv
  · cases hv
  rename_i hact
  split at hv
  · cases hv
  rename_i expected hto
  split at hv
  · cases hv
  rename_i hseat
  have hseat := not_not.mp hseat
  refine ⟨⟨by simpa using hphase, by rw [hto, hseat], ?_⟩, ?_⟩
  · simpa [seat, seatOf, hstate] using hact
  · cases hva : h.validateAction command.seat command.action with
    | ok u => rfl
    | error e => rw [hva] at hv; cases hv

/-- The seat on turn has a menu of actions, read off the street. -/
structure Menu (h : MultiwayHand) (p : SeatId) (legal : MultiwayLegalActions) : Prop where
  canFold : legal.canFold = true ↔ h.street.bet p < h.street.wager
  canCheck : legal.canCheck = true ↔ h.street.wager ≤ h.street.bet p
  callAmount : ∀ n, legal.callAmount = some n ↔ n = h.street.wager - h.street.bet p ∧ 0 < n ∧ n < h.street.stack p
  minBetTo : ∀ n, legal.minBetTo = some n → h.street.wager = 0 ∧ n = h.blindValues.bigBlind
  minRaiseTo : ∀ n, legal.minRaiseTo = some n → h.street.Open p ∧ n = saturatingAdd h.street.wager h.street.raise
  allInTo : legal.allInTo = h.street.bet p + h.street.stack p
  reopened : legal.raiseReopened = true ↔ h.street.Open p

section accepted
variable {h : MultiwayHand} {p : SeatId} {action : Action}

theorem Booked.street_fits (hb : h.Booked) (p : SeatId) : h.street.bet p + h.street.stack p ≤ u32Max := by
  have h1 := hb.fits p
  have h2 := hb.street_le p
  simp only [street]; omega

theorem OnTurn.menu (ht : h.OnTurn p) (hb : h.Booked) : ∃ legal, h.legalActionsFor p = some legal ∧ h.Menu p legal := by
  have hfit := hb.street_fits p
  simp only [street] at hfit
  have hturn : ¬ (!h.phase.acceptsActions || h.toAct != some p || !(h.seat p).canAct) = true := by
    simp [ht.accepts, ht.toAct, ht.canAct]
  refine ⟨_, by rw [legalActionsFor, if_neg hturn], ?_⟩
  have hcall : h.amountToCall p = h.street.wager - h.street.bet p := rfl
  refine ⟨?_, ?_, fun n => ?_, fun n hn => ?_, fun n hn => ?_, ?_, raiseReopenedFor_iff⟩
  · rw [decide_eq_true_eq, hcall]; omega
  · rw [decide_eq_true_eq, hcall]; omega
  · by_cases hc : 0 < h.amountToCall p ∧ h.amountToCall p < (h.seat p).stack
    · rw [if_pos hc, Option.some.injEq, ← hcall]
      exact ⟨fun e => ⟨e.symm, e ▸ hc⟩, fun e => e.1.symm⟩
    · rw [if_neg hc, ← hcall]
      exact ⟨fun e => absurd e (by simp), fun e => absurd (e.1 ▸ e.2) hc⟩
  · by_cases hc : h.currentWager = 0 ∧ (h.occupiedSeats.any fun other => other != p && (h.seat other).canAct) = true ∧
        h.blindValues.bigBlind ≤ saturatingAdd (h.seat p).streetContribution (h.seat p).stack - 1
    · rw [if_pos hc] at hn; exact ⟨hc.1, (Option.some.inj hn).symm⟩
    · rw [if_neg hc] at hn; cases hn
  · by_cases hc : 0 < h.currentWager ∧ (h.occupiedSeats.any fun other => other != p && (h.seat other).canAct) = true ∧
        h.raiseReopenedFor p = true ∧ saturatingAdd h.currentWager h.lastFullRaiseSize ≤
          saturatingAdd (h.seat p).streetContribution (h.seat p).stack - 1
    · rw [if_pos hc] at hn; exact ⟨raiseReopenedFor_iff.mp hc.2.2.1, (Option.some.inj hn).symm⟩
    · rw [if_neg hc] at hn; cases hn
  · simp only [saturatingAdd, street]; omega

/-! ## What an accepted action does -/

/-- `p`'s chips moved as the turn `o` says, nobody else's. -/
structure Moved (h : MultiwayHand) (p : SeatId) (o : Outcome) (h' : MultiwayHand) : Prop where
  frame : h' = { h with seats := h'.seats, currentWager := o.wager, lastFullRaiseSize := o.raise }
  length : h'.seats.length = h.seats.length
  occupied : ∀ q, occupiedIn h'.seats q = occupiedIn h.seats q
  self : ∃ part : HandParticipation, part.status = o.status ∧ h'.seat p = { h.seat p with
    stack := (h.seat p).stack - o.paid
    streetContribution := (h.seat p).streetContribution + o.paid
    handContribution := (h.seat p).handContribution + o.paid
    participation := part }
  other : ∀ q, q ≠ p → h'.seat q = h.seat q

/-- Bringing a seat's street total to `target` moves the difference. -/
theorem commitTo_spec (hb : h.Booked) (hp : occupiedIn h.seats p = true) {target : Nat}
    (hlo : (h.seat p).streetContribution ≤ target) (hhi : target ≤ (h.seat p).streetContribution + (h.seat p).stack) :
    SameTable h (h.commitTo p target) ∧ (h.commitTo p target).panicked = h.panicked ∧
      (h.commitTo p target).seat p = paid (h.seat p) (target - (h.seat p).streetContribution) ∧
      ∀ q, q ≠ p → (h.commitTo p target).seat q = h.seat q := by
  refine ⟨commitChips_table h p _, panicked_commitChips hp _ (hb.street_le p) (hb.fits p), ?_,
    fun q hq => seat_commitChips_ne hq _⟩
  rw [commitTo, seat_commitChips_self hp, Nat.min_eq_left (by omega)]

/-- A commitment to `target`, with the wager and the least raise of the turn. -/
theorem Moved.ofCommit (hb : h.Booked) (hp : occupiedIn h.seats p = true) (target wager raise : Nat) (mark : Option Nat)
    {st : Status} (hlo : (h.seat p).streetContribution ≤ target)
    (hhi : target ≤ (h.seat p).streetContribution + (h.seat p).stack)
    (hst : (if (h.seat p).stack - (target - (h.seat p).streetContribution) = 0 then HandParticipation.allIn
      else (h.seat p).participation).status = st) :
    h.Moved p ⟨target - (h.seat p).streetContribution, st, mark, wager, raise⟩
      { h.commitTo p target with currentWager := wager, lastFullRaiseSize := raise } := by
  obtain ⟨ht, hpan, hself, hother⟩ := commitTo_spec hb hp hlo hhi
  refine ⟨?_, ht.length, ht.occupied, ⟨_, hst, hself⟩, hother⟩
  rw [ht.frame, hpan]

/-- A commitment that leaves the wager and the least raise alone. -/
theorem commitTo_self (h : MultiwayHand) (p : SeatId) (target : Nat) :
    { h.commitTo p target with currentWager := h.currentWager, lastFullRaiseSize := h.lastFullRaiseSize } =
      h.commitTo p target := by
  rw [show h.commitTo p target = _ from (commitChips_table h p _).frame]

/-- The all-in arm marks the seat all-in once more. -/
theorem Moved.setAllIn {o : Outcome} {h' : MultiwayHand} (hm : h.Moved p o h') (hp : occupiedIn h.seats p = true)
    (ho : o.status = .allIn) : h.Moved p o (h'.updateSeat p fun state => { state with participation := .allIn }) := by
  have hp' : occupiedIn h'.seats p = true := by rw [hm.occupied, hp]
  obtain ⟨part, hpart, hself⟩ := hm.self
  refine ⟨?_, (updateSeat_table h' p _).length.trans hm.length,
    fun q => ((updateSeat_table h' p _).occupied q).trans (hm.occupied q), ⟨.allIn, ho.symm, ?_⟩,
    fun q hq => (seat_updateSeat_ne hq).trans (hm.other q hq)⟩
  · rw [(updateSeat_table h' p _).frame, panicked_updateSeat hp', hm.frame]
  · rw [seat_updateSeat_self hp', hself]

/-- Only a wager can be raised. -/
theorem minRaiseTo_wagered {legal : MultiwayLegalActions} {n : Nat} (hlegal : h.legalActionsFor p = some legal)
    (hmin : legal.minRaiseTo = some n) : 0 < h.currentWager := by
  unfold legalActionsFor at hlegal
  split at hlegal
  · cases hlegal
  · obtain rfl := Option.some.inj hlegal
    by_contra hzero
    simp [hzero] at hmin

/-- Where the hand accepts the action of `p`. -/
def Takes (h : MultiwayHand) (p : SeatId) : Action → Prop
  | .fold => h.street.bet p < h.street.wager
  | .check => h.street.wager ≤ h.street.bet p
  | .call n => n = h.street.wager - h.street.bet p ∧ 0 < n ∧ n < h.street.stack p
  | .bet n => h.street.wager = 0 ∧ h.blindValues.bigBlind ≤ n ∧ n < h.street.bet p + h.street.stack p
  | .raise n => 0 < h.street.wager ∧ h.street.wager + h.street.raise ≤ n ∧ n < h.street.bet p + h.street.stack p
  | .allIn n => n = h.street.bet p + h.street.stack p ∧ h.street.bet p < n

theorem OnTurn.takes (ht : h.OnTurn p) (hb : h.Booked) (hs : Sound h.blindValues.bigBlind h.street)
    (hv : h.validateAction p action = .ok ()) : h.Takes p action := by
  obtain ⟨legal, hlegal, hm⟩ := ht.menu hb
  have hstack : 0 < h.street.stack p := hs.live_stack p ((canAct_iff hs).mp ht.canAct)
  have hfit : h.street.bet p + h.street.stack p ≤ u32Max := hb.street_fits p
  have hall : legal.allInTo = h.street.bet p + h.street.stack p := hm.allInTo
  simp only [validateAction, hlegal, Option.getD_some] at hv
  cases action with
  | fold =>
    by_cases hc : legal.canFold = true
    · exact hm.canFold.mp hc
    · rw [if_neg hc] at hv; cases hv
  | check =>
    by_cases hc : legal.canCheck = true
    · exact hm.canCheck.mp hc
    · rw [if_neg hc] at hv; cases hv
  | call n =>
    cases hca : legal.callAmount with
    | none => rw [hca] at hv; cases hv
    | some expected =>
      simp only [hca] at hv
      obtain rfl : expected = n := by by_contra hne; rw [if_neg hne] at hv; cases hv
      exact (hm.callAmount expected).mp hca
  | bet n =>
    cases hmin : legal.minBetTo with
    | none => rw [hmin] at hv; cases hv
    | some minimum =>
      simp only [hmin, hall] at hv
      by_cases hc : minimum ≤ n ∧ n ≤ h.street.bet p + h.street.stack p - 1
      · obtain ⟨hzero, rfl⟩ := hm.minBetTo minimum hmin
        exact ⟨hzero, hc.1, by omega⟩
      · rw [if_neg hc] at hv; cases hv
  | raise n =>
    dsimp only at hv
    by_cases hopen : (!legal.raiseReopened) = true
    · rw [if_pos hopen] at hv; cases hv
    rw [if_neg hopen] at hv
    cases hmin : legal.minRaiseTo with
    | none => rw [hmin] at hv; cases hv
    | some minimum =>
      simp only [hmin, hall] at hv
      by_cases hc : minimum ≤ n ∧ n ≤ h.street.bet p + h.street.stack p - 1
      · obtain ⟨_, hleast⟩ := hm.minRaiseTo minimum hmin
        simp only [saturatingAdd] at hleast
        exact ⟨minRaiseTo_wagered hlegal hmin, by omega, by omega⟩
      · rw [if_neg hc] at hv; cases hv
  | allIn n =>
    dsimp only at hv
    by_cases hshut : h.currentWager < n ∧ (!legal.raiseReopened) = true
    · rw [if_pos hshut] at hv; cases hv
    rw [if_neg hshut] at hv
    by_cases hc : n = legal.allInTo ∧ (h.seat p).streetContribution < n
    · exact ⟨hc.1.trans hall, hc.2⟩
    · rw [if_neg hc] at hv; cases hv

/-- A bet or a raise to `n`, short of everything. -/
theorem Moved.ofRaise (hb : h.Booked) (hp : occupiedIn h.seats p = true) (hpart : (h.seat p).participation = .live) {n : Nat}
    (hlo : (h.seat p).streetContribution ≤ n) (hhi : n < (h.seat p).streetContribution + (h.seat p).stack) :
    h.Moved p ⟨n - (h.seat p).streetContribution, .live, some n, n, n - h.currentWager⟩
      { h.commitTo p n with currentWager := n, lastFullRaiseSize := n - h.currentWager } := by
  refine Moved.ofCommit hb hp n n (n - h.currentWager) (some n) hlo (Nat.le_of_lt hhi) ?_
  rw [if_neg (by omega), hpart]
  rfl

/-- Everything in: a full raise, a short one or less than the wager. -/
theorem moveChips_allIn (hb : h.Booked) (hs : Sound h.blindValues.bigBlind h.street) (hp : occupiedIn h.seats p = true) {n : Nat}
    (hn : n = (h.seat p).streetContribution + (h.seat p).stack) (hlt : (h.seat p).streetContribution < n) :
    ∃ o, Allowed h.street p o ∧ Moved h p o (h.moveChips p (.allIn n)) := by
  have hpaid : n - (h.seat p).streetContribution = (h.seat p).stack := by omega
  have hst : (if (h.seat p).stack - (n - (h.seat p).streetContribution) = 0 then HandParticipation.allIn
      else (h.seat p).participation).status = .allIn := by rw [if_pos (by omega)]; rfl
  -- the turn, given the wager and the least raise it leaves
  have turn : ∀ wager raise, h.Moved p ⟨(h.seat p).stack, .allIn, h.street.mark p, wager, raise⟩
      { h.commitTo p n with currentWager := wager, lastFullRaiseSize := raise } := fun wager raise =>
    hpaid ▸ Moved.ofCommit hb hp n wager raise (h.street.mark p) (by omega) (by omega) hst
  have hframe : h.commitTo p n = _ := (commitChips_table h p _).frame
  have hlfrs : (h.commitTo p n).lastFullRaiseSize = h.lastFullRaiseSize := by rw [hframe]
  have hbb : (h.commitTo p n).blindValues = h.blindValues := by rw [hframe]
  have hfull : (if h.currentWager = 0 then h.blindValues.bigBlind ≤ n else h.lastFullRaiseSize ≤ n - h.currentWager) ↔
      h.lastFullRaiseSize ≤ n - h.currentWager := by
    split
    · rename_i h0
      have : h.lastFullRaiseSize = h.blindValues.bigBlind := hs.raise_unopened h0
      rw [this, h0]; rfl
    · rfl
  by_cases hup : h.currentWager < n
  · by_cases hraise : h.lastFullRaiseSize ≤ n - h.currentWager
    · refine ⟨_, .raiseAll (by simp only [street]; omega), ?_⟩
      simp only [moveChips, if_pos hup, hlfrs, hbb, hfull, if_pos hraise]
      simp only [show h.street.bet p + h.street.stack p = n from hn.symm]
      exact (turn n (n - h.currentWager)).setAllIn hp rfl
    · refine ⟨_, .shortAll (by simp only [street]; omega) (by simp only [street]; omega), ?_⟩
      simp only [moveChips, if_pos hup, hlfrs, hbb, hfull, if_neg hraise]
      simp only [show h.street.bet p + h.street.stack p = n from hn.symm]
      exact (turn n h.lastFullRaiseSize).setAllIn hp rfl
  · refine ⟨_, .callAll (by simp only [street]; omega), ?_⟩
    simp only [moveChips, if_neg hup]
    have := (turn h.currentWager h.lastFullRaiseSize).setAllIn hp rfl
    rwa [commitTo_self] at this

/-- Each accepted action is an allowed turn, and moves the chips of that turn. -/
theorem moveChips_spec (hb : h.Booked) (hs : Sound h.blindValues.bigBlind h.street) (ht : h.OnTurn p)
    (hv : h.validateAction p action = .ok ()) : ∃ o, Allowed h.street p o ∧
      action.Lifts (h.currentWager, h.lastFullRaiseSize) o.wager ∧ Moved h p o (h.moveChips p action) := by
  have htakes := ht.takes hb hs hv
  have hlive := (canAct_iff hs).mp ht.canAct
  have hpart := status_live.mp hlive
  have hocc : occupiedIn h.seats p = true := occupied_of_status (by rw [hlive]; simp)
  have hstack : 0 < (h.seat p).stack := hs.live_stack p hlive
  have hbet : (h.seat p).streetContribution ≤ h.currentWager := hs.bet_le p
  have hfit : (h.seat p).streetContribution + (h.seat p).stack ≤ u32Max := hb.street_fits p
  cases action with
  | fold =>
    refine ⟨_, .fold htakes, rfl, ?_⟩
    have hu := updateSeat_table h p fun state => { state with participation := .folded }
    exact ⟨by rw [moveChips, hu.frame, panicked_updateSeat hocc]; rfl, hu.length, hu.occupied,
      ⟨.folded, rfl, seat_updateSeat_self hocc⟩, fun q hq => seat_updateSeat_ne hq⟩
  | check =>
    have hle : h.currentWager ≤ (h.seat p).streetContribution := htakes
    have h0 : h.currentWager - (h.seat p).streetContribution = 0 := by omega
    refine ⟨_, .stay (by simp only [street]; omega), rfl, ?_⟩
    exact ⟨rfl, rfl, fun _ => rfl, ⟨.live, rfl, by simp [moveChips, street, h0, ← hpart]⟩, fun _ _ => rfl⟩
  | call n =>
    obtain ⟨he, hpos, hlt⟩ := htakes
    simp only [street] at he hlt
    refine ⟨_, .stay (by simp only [street]; omega), rfl, ?_⟩
    have hc : h.check (fitsU32 ((h.seat p).streetContribution + n)) = h := by
      have : fitsU32 ((h.seat p).streetContribution + n) = true := by
        simp only [fitsU32, decide_eq_true_eq]; omega
      rw [this, check_true]
    -- a commitment that leaves chips behind keeps the seat live
    have hkept : (if (h.seat p).stack - ((h.seat p).streetContribution + n - (h.seat p).streetContribution) = 0 then
        HandParticipation.allIn else (h.seat p).participation).status = .live := by
      rw [if_neg (by omega), hpart]
      rfl
    have hmoved := Moved.ofCommit hb hocc ((h.seat p).streetContribution + n) h.currentWager h.lastFullRaiseSize
      (some h.currentWager) (by omega) (by omega) hkept
    rw [commitTo_self, Nat.add_sub_cancel_left] at hmoved
    simp only [moveChips, hc, street, ← he]
    exact hmoved
  | bet n =>
    obtain ⟨hzero, hleast, hlt⟩ := htakes
    have hraise : h.lastFullRaiseSize = h.blindValues.bigBlind := hs.raise_unopened hzero
    simp only [street] at hzero hlt
    refine ⟨_, .raise n (by simp only [street]; omega) (by simp only [street]; omega),
      show h.lastFullRaiseSize ≤ n - h.currentWager by omega, ?_⟩
    exact Moved.ofRaise hb hocc hpart (by omega) hlt
  | raise n =>
    obtain ⟨_, hleast, hlt⟩ := htakes
    simp only [street] at hleast hlt
    refine ⟨_, .raise n (by simp only [street]; omega) (by simp only [street]; omega),
      show h.lastFullRaiseSize ≤ n - h.currentWager by omega, ?_⟩
    exact Moved.ofRaise hb hocc hpart (by omega) hlt
  | allIn n =>
    obtain ⟨o, ha, hmoved⟩ := moveChips_allIn hb hs hocc htakes.1 htakes.2
    exact ⟨o, ha, trivial, hmoved⟩

/-! ## The action on record -/

theorem markResponse_table (h : MultiwayHand) (p : SeatId) : SameTable h (h.markResponse p) := by
  simp only [markResponse]
  split
  · exact updateSeat_table h p _
  · exact .refl h

theorem panicked_markResponse (hp : occupiedIn h.seats p = true) : (h.markResponse p).panicked = h.panicked := by
  simp only [markResponse]
  split
  · exact panicked_updateSeat hp
  · rfl

theorem seat_markResponse_self (hp : occupiedIn h.seats p = true) : (h.markResponse p).seat p = { h.seat p with
    lastActionWager := if (h.seat p).participation = .live then some h.currentWager else (h.seat p).lastActionWager } := by
  simp only [markResponse]
  split
  · exact seat_updateSeat_self hp
  · rfl

theorem seat_markResponse_ne {q : SeatId} (hq : q ≠ p) : (h.markResponse p).seat q = h.seat q := by
  simp only [markResponse]
  split
  · exact seat_updateSeat_ne hq
  · rfl

/-- The hand after `p` took the turn `o` with `action`: the street moved by the turn, the
    history has one more record, and the rest is as it was. -/
structure Acted (h : MultiwayHand) (p : SeatId) (action : Action) (o : Outcome) (h' : MultiwayHand) : Prop where
  frame : h' = { h with
    seats := h'.seats
    currentWager := o.wager
    lastFullRaiseSize := o.raise
    actionHistory := h.actionHistory ++ [⟨h.actionHistory.length + 1, h.phase, p, action, o.wager⟩] }
  length : h'.seats.length = h.seats.length
  occupied : ∀ q, occupiedIn h'.seats q = occupiedIn h.seats q
  cards : ∀ q, (h'.seat q).holeCards = (h.seat q).holeCards
  street_le : ∀ q, (h'.seat q).streetContribution ≤ (h'.seat q).handContribution
  street : h'.street = h.street.act p o

theorem recordAction_spec (hb : h.Booked) (hs : Sound h.blindValues.bigBlind h.street) (ht : h.OnTurn p)
    (hv : h.validateAction p action = .ok ()) : ∃ o, Allowed h.street p o ∧
      action.Lifts (h.currentWager, h.lastFullRaiseSize) o.wager ∧ Acted h p action o (h.recordAction p action) := by
  obtain ⟨o, ha, hlift, hm⟩ := moveChips_spec hb hs ht hv
  have hocc : occupiedIn h.seats p = true :=
    occupied_of_status (by rw [(canAct_iff hs).mp ht.canAct]; simp)
  generalize hg : h.moveChips p action = g at hm
  have hocc' : occupiedIn g.seats p = true := by rw [hm.occupied, hocc]
  obtain ⟨part, hpart, hself⟩ := hm.self
  have hmark := markResponse_table g p
  have hwager : g.currentWager = o.wager := by rw [hm.frame]
  have hpartlive : part = .live ↔ o.status = .live := by rw [← hpart]; cases part <;> simp [HandParticipation.status]
  have hself' := seat_markResponse_self hocc'
  rw [hself, hwager] at hself'
  have hother : ∀ q, q ≠ p → (g.markResponse p).seat q = h.seat q :=
    fun q hq => (seat_markResponse_ne hq).trans (hm.other q hq)
  have hrec : h.recordAction p action = { g.markResponse p with
      actionHistory := h.actionHistory ++ [⟨h.actionHistory.length + 1, h.phase, p, action, o.wager⟩] } := by
    simp only [recordAction, hg]
    rw [hmark.frame, hm.frame]
  refine ⟨o, ha, hlift, ?_⟩
  rw [hrec]
  refine ⟨?_, hmark.length.trans hm.length, fun q => (hmark.occupied q).trans (hm.occupied q), fun q => ?_, fun q => ?_, ?_⟩
  · rw [hmark.frame, panicked_markResponse hocc', hm.frame]
  · by_cases e : q = p
    · subst e; exact congrArg (·.holeCards) hself'
    · exact congrArg (·.holeCards) (hother q e)
  · by_cases e : q = p
    · subst e
      have := hb.street_le q
      show ((g.markResponse q).seat q).streetContribution ≤ ((g.markResponse q).seat q).handContribution
      rw [hself']; simp only; omega
    · show ((g.markResponse p).seat q).streetContribution ≤ ((g.markResponse p).seat q).handContribution
      rw [hother q e]; exact hb.street_le q
  · have hmarkp : o.mark = if part = .live then some o.wager else (h.seat p).lastActionWager := by
      rw [ha.mark]; simp only [hpartlive]; rfl
    have key : ∀ q, (g.markResponse p).street.stack q = (h.street.act p o).stack q ∧
        (g.markResponse p).street.bet q = (h.street.act p o).bet q ∧
        (g.markResponse p).street.prior q = (h.street.act p o).prior q ∧
        (g.markResponse p).street.status q = (h.street.act p o).status q ∧
        (g.markResponse p).street.mark q = (h.street.act p o).mark q := fun q => by
      by_cases e : q = p
      · subst e
        have hle := hb.street_le q
        simp only [act_stack_self, act_bet_self, act_prior, act_status_self, act_mark_self, hmarkp]
        simp only [MultiwayHand.street, hself', hpart, true_and, and_true]
        omega
      · simp only [act_stack_ne _ _ e, act_bet_ne _ _ e, act_prior, act_status_ne _ _ e, act_mark_ne _ _ e]
        simp only [MultiwayHand.street, hother q e, true_and]
    have hw : (g.markResponse p).currentWager = o.wager := by rw [hmark.frame]; exact hwager
    have hr : (g.markResponse p).lastFullRaiseSize = o.raise := by rw [hmark.frame, hm.frame]
    exact street_ext (fun q => (key q).1) (fun q => (key q).2.1) (fun q => (key q).2.2.1) (fun q => (key q).2.2.2.1)
      (fun q => (key q).2.2.2.2) hw hr

end accepted

end MultiwayHand

end OpenFelt
