/-
  OpenFelt.Offline.Menu — the actions offered to the local player and the keys that submit
  them (`AvailableActions::new` of `src/game/actions.rs`, `available_actions` of
  `src/game/state.rs`, `src/ui/input.rs`).

  Translation. The typed text is its characters. A sum that leaves a `u32` wraps;
  `overflowed` is set where the conversion from big blinds to chips does, `steppedPast`
  where the up arrow's step does (`handleKeys_steppedPast`). Keys after the one that
  submits find another state and are not read (`handleKeys`).

  `menu_matches_rules`: in a state that a game reaches, with the local seat to act, the
  menu is the rules' and every submitted action is accepted exactly when `MenuFits` and no
  entry of 2^31 big blinds or more is confirmed. `MenuFits` leaves out a seat that cannot
  act, a street with blinds on it and nothing to call, whose least bet the menu takes for
  the big blind, a stack too small to bet, and a raise to at least the stack that the
  chips already bet allow.
-/

import OpenFelt.Lib.Numerals
import OpenFelt.Offline.Driver

namespace OpenFelt

/-! ## The menu -/

structure AvailableActions where
  canFold : Bool
  canCheck : Bool
  canCall : Option Nat
  minBet : Option Nat
  minRaise : Option Nat
  maxRaise : Nat
  deriving DecidableEq, Repr

def AvailableActions.new (toCall minRaiseTo playerStack bigBlind : Nat) : AvailableActions where
  canFold := 0 < toCall
  canCheck := toCall = 0
  canCall := if 0 < toCall ∧ toCall < playerStack then some toCall else none
  minBet := if toCall = 0 ∧ 0 < playerStack then some (min bigBlind playerStack) else none
  minRaise := if 0 < toCall ∧ minRaiseTo < playerStack then some minRaiseTo else none
  maxRaise := playerStack

/-- The highest bet and the least raise of it, before it is a `u32`. -/
def GameState.leastRaise (g : GameState) : Nat := g.maxBet + max g.lastRaiseSize bigBlind

def GameState.availableActions (g : GameState) : AvailableActions :=
  .new (g.amountToCall g.toAct) (wrap32 g.leastRaise) (g.stack g.toAct) bigBlind

/-! ## Keys -/

inductive KeyCode where
  | char (c : Char)
  | backspace
  | up
  | down
  | enter
  | esc
  | other
  deriving DecidableEq, Repr

/-- The keys that confirm an entry. -/
def KeyCode.confirms : KeyCode → Bool
  | .enter => true
  | .char c => c = 'r' || c = 'R'
  | _ => false

/-- `raise_mode` and `raise_input`, and whether a conversion to chips and a step up have overflowed. -/
structure RaiseEntry where
  raiseMode : Bool
  raiseInput : List Char
  overflowed : Bool
  steppedPast : Bool
  deriving DecidableEq, Repr

namespace RaiseEntry

def closed : RaiseEntry := ⟨false, [], false, false⟩

/-- The big blinds typed so far. -/
def typedBb (entry : RaiseEntry) : Option Nat := Numerals.parseUnsigned u32Max entry.raiseInput

end RaiseEntry

def minRaiseChips (available : AvailableActions) : Nat := available.minRaise.getD (available.minBet.getD bigBlind)

/-- Rounded up. -/
def minRaiseBb (available : AvailableActions) : Nat := (minRaiseChips available + (bigBlind - 1)) / bigBlind

namespace GameState

variable (g : GameState)

/-- All the chips of a seat on this street. -/
def allChips (p : HeadsUpSeat) : Nat := wrap32 (g.streetBet p + g.stack p)

/-- The action for so many big blinds. -/
def raiseAction (typedBb : Nat) : Action :=
  let actual := min (max (wrap32 (typedBb * bigBlind)) (minRaiseChips g.availableActions)) (g.allChips localSeat)
  if g.allChips localSeat ≤ actual then .allIn (g.allChips localSeat)
  else if 0 < g.amountToCall localSeat then .raise actual
  else .bet actual

def submitRaise (entry : RaiseEntry) : Option Action × RaiseEntry :=
  match entry.typedBb with
  | none => (none, entry)
  | some 0 => (none, entry)
  | some typedBb =>
    (some (g.raiseAction typedBb), { entry with
      raiseMode := false
      raiseInput := []
      overflowed := entry.overflowed || !fitsU32 (typedBb * bigBlind) })

def handleRaiseModeKey (entry : RaiseEntry) : KeyCode → Option Action × RaiseEntry
  | .char c =>
    if c.isDigit then (none, { entry with raiseInput := entry.raiseInput ++ [c] })
    else if c = 'r' ∨ c = 'R' then g.submitRaise entry
    else (none, entry)
  | .backspace => (none, { entry with raiseInput := entry.raiseInput.dropLast })
  | .up =>
    let currentBb := entry.typedBb.getD 0
    let newBb := max (min (wrap32 (currentBb + 1)) (g.allChips localSeat / bigBlind)) (minRaiseBb g.availableActions)
    (none, { entry with
      raiseInput := newBb.repr.toList
      steppedPast := entry.steppedPast || !fitsU32 (currentBb + 1) })
  | .down =>
    let currentBb := entry.typedBb.getD 0
    let newBb := if minRaiseBb g.availableActions < currentBb then currentBb - 1 else minRaiseBb g.availableActions
    (none, { entry with raiseInput := newBb.repr.toList })
  | .enter => g.submitRaise entry
  | .esc => (none, { entry with raiseMode := false, raiseInput := [] })
  | .other => (none, entry)

def handleKey (entry : RaiseEntry) (key : KeyCode) : Option Action × RaiseEntry :=
  if !g.isTurn localSeat then (none, entry)
  else if entry.raiseMode then g.handleRaiseModeKey entry key
  else
    let available := g.availableActions
    match key with
    | .char c =>
      if c = 'f' ∨ c = 'F' then (if available.canFold then some .fold else none, entry)
      else if c = 'c' ∨ c = 'C' then
        ((available.canCall.map Action.call).or (if available.canCheck then some .check else none), entry)
      else if c = 'a' ∨ c = 'A' then (if 0 < g.stack localSeat then some (.allIn (g.allChips localSeat)) else none, entry)
      else if c = 'r' ∨ c = 'R' then
        if available.minRaise.isSome || available.minBet.isSome then (none, { entry with raiseMode := true, raiseInput := [] })
        else (none, entry)
      else (none, entry)
    | _ => (none, entry)

/-- The keys of one turn, up to the one that submits an action. -/
def handleKeys : RaiseEntry → List KeyCode → Option Action × RaiseEntry
  | entry, [] => (none, entry)
  | entry, key :: rest =>
    match g.handleKey entry key with
    | (some action, entry) => (some action, entry)
    | (none, entry) => handleKeys entry rest

/-! ## What the menu promises -/

def Accepts (p : HeadsUpSeat) (action : Action) : Prop := g.validateCommand ⟨p.seatId, action⟩ = .ok ()

/-- The menu offers what the rules accept, from the least amount on, and the keys submit nothing else. -/
structure MenuMatches (keys : List KeyCode) : Prop where
  fold : g.availableActions.canFold = true ↔ g.Accepts localSeat .fold
  check : g.availableActions.canCheck = true ↔ g.Accepts localSeat .check
  call : g.availableActions.canCall.isSome = true ↔ ∃ amount, g.Accepts localSeat (.call amount)
  bet : g.availableActions.minBet.isSome = true ↔ ∃ amount, g.Accepts localSeat (.bet amount)
  raise : g.availableActions.minRaise.isSome = true ↔ ∃ amount, g.Accepts localSeat (.raise amount)
  minBet : ∀ least, g.availableActions.minBet = some least →
    g.Accepts localSeat (.bet least) ∧ ∀ amount, g.Accepts localSeat (.bet amount) → least ≤ amount
  minRaise : ∀ least, g.availableActions.minRaise = some least →
    g.Accepts localSeat (.raise least) ∧ ∀ amount, g.Accepts localSeat (.raise amount) → least ≤ amount
  submits : ∀ action, (g.handleKeys .closed keys).1 = some action → g.Accepts localSeat action
  inRange : (g.handleKeys .closed keys).2.overflowed = false

/-- The local seat can act. With nothing to call no bet is on the street, and the stack is above the big blind;
    facing a bet, the least raise is below the stack or takes all the seat's chips on the street. -/
def MenuFits : Prop :=
  (g.seat localSeat).eligibleToAct = true ∧
    (g.amountToCall localSeat = 0 → g.maxBet = 0 ∧ bigBlind < g.stack localSeat) ∧
    (0 < g.amountToCall localSeat → g.leastRaise < g.stack localSeat ∨
      g.stack localSeat ≤ wrap32 g.leastRaise ∧ g.streetBet localSeat + g.stack localSeat ≤ g.leastRaise)

/-- Some key of the turn, up to the one that submits, passes the test at the entry it finds. -/
def someKey (test : RaiseEntry → KeyCode → Bool) : RaiseEntry → List KeyCode → Bool
  | _, [] => false
  | entry, key :: rest =>
    test entry key ||
      match g.handleKey entry key with
      | (some _, _) => false
      | (none, entry) => someKey test entry rest

/-- Some key of the turn confirms an entry of 2^31 big blinds or more. -/
def confirmsHuge (entry : RaiseEntry) (keys : List KeyCode) : Bool :=
  g.someKey (fun entry key => entry.raiseMode && key.confirms && entry.typedBb.any (2 ^ 31 ≤ ·)) entry keys

/-- Some up arrow of the turn finds the largest `u32` typed. -/
def stepsPast (entry : RaiseEntry) (keys : List KeyCode) : Bool :=
  g.someKey (fun entry key => entry.raiseMode && decide (key = .up) && decide (entry.typedBb = some u32Max)) entry keys

/-! ## What the rules accept -/

section rules
variable {g : GameState} {p : HeadsUpSeat} {action : Action} {amount : Nat}

theorem allChips_eq (hr : g.InRange) : g.allChips p = g.streetBet p + g.stack p := by
  have h := hr p
  exact wrap32_of_le (by omega)

theorem availableActions_eq (hturn : g.isTurn p = true) : g.availableActions =
    .new (g.amountToCall p) (wrap32 g.leastRaise) (g.stack p) bigBlind := by
  simp only [isTurn, Bool.and_eq_true, decide_eq_true_eq] at hturn
  rw [availableActions, hturn.1]

theorem least_le (hr : g.InRange) (p : HeadsUpSeat) : g.streetBet p + g.stack p ≤ u32Max ∧ bigBlind ≤ g.leastRaise ∧
    g.streetBet p ≤ g.maxBet := by
  refine ⟨?_, Nat.le_trans (Nat.le_max_right _ _) (Nat.le_add_left _ _), streetBet_le_maxBet g p⟩
  have h := hr p
  omega

theorem saturating_total (hr : g.InRange) :
    saturatingAdd (g.streetBet p) (g.stack p) = g.streetBet p + g.stack p := by
  have h := hr p
  exact Nat.min_eq_left (by omega)

theorem accepts_iff (hturn : g.isTurn p = true) :
    g.Accepts p action ↔ (g.seat p).eligibleToAct = true ∧ g.validateAction p action = .ok () := by
  simp only [isTurn, Bool.and_eq_true, decide_eq_true_eq] at hturn
  obtain ⟨hact, hbetting⟩ := hturn
  constructor
  · intro h
    obtain ⟨-, hseat, helig, hv⟩ := validateCommand_ok h
    rw [← hact]
    exact ⟨helig, hv⟩
  · rintro ⟨helig, hv⟩
    have hseat : HeadsUpSeat.ofSeat p.seatId = some p := HeadsUpSeat.ofSeat_seatId p
    simp [Accepts, validateCommand, hbetting, hseat, helig, hact, hv]

theorem accepts_fold (hturn : g.isTurn p = true) :
    g.Accepts p .fold ↔ (g.seat p).eligibleToAct = true ∧ 0 < g.amountToCall p := by
  rw [accepts_iff hturn]
  simp [validateAction]

theorem accepts_check (hturn : g.isTurn p = true) :
    g.Accepts p .check ↔ (g.seat p).eligibleToAct = true ∧ g.amountToCall p = 0 := by
  rw [accepts_iff hturn]
  simp [validateAction]

theorem accepts_call (hturn : g.isTurn p = true) : g.Accepts p (.call amount) ↔
    (g.seat p).eligibleToAct = true ∧ 0 < g.amountToCall p ∧ g.amountToCall p < g.stack p ∧
      amount = g.amountToCall p := by
  rw [accepts_iff hturn]
  refine and_congr_right fun _ => ?_
  simp only [validateAction]
  split
  · rename_i hnot
    exact iff_of_false (by simp) (by omega)
  · rename_i hfits
    split
    · rename_i heq
      exact iff_of_true rfl ⟨by omega, by omega, heq⟩
    · rename_i hne
      exact iff_of_false (by simp) fun h => hne h.2.2

variable (hturn : g.isTurn p = true) (hr : g.InRange)
include hturn hr

theorem accepts_bet : g.Accepts p (.bet amount) ↔ (g.seat p).eligibleToAct = true ∧ g.amountToCall p = 0 ∧
    (if g.maxBet = 0 then bigBlind else min g.leastRaise u32Max) ≤ amount ∧
      amount + 1 ≤ g.streetBet p + g.stack p := by
  rw [accepts_iff hturn]
  refine and_congr_right fun helig => ?_
  have hpos := (eligibleToAct_iff.mp helig).1
  simp only [validateAction, saturating_total hr]
  by_cases hcall : 0 < g.amountToCall p
  · rw [if_pos hcall]
    exact iff_of_false (by simp) (by omega)
  · rw [if_neg hcall]
    by_cases hrange : (if g.maxBet = 0 then bigBlind else saturatingAdd g.maxBet (max g.lastRaiseSize bigBlind)) ≤ amount ∧
        amount ≤ g.streetBet p + g.stack p - 1
    · rw [if_pos hrange]
      exact iff_of_true rfl ⟨by omega, hrange.1, by omega⟩
    · rw [if_neg hrange]
      exact iff_of_false (by simp) fun h => hrange ⟨h.2.1, by omega⟩

theorem accepts_raise : g.Accepts p (.raise amount) ↔ (g.seat p).eligibleToAct = true ∧ 0 < g.amountToCall p ∧
    min g.leastRaise u32Max ≤ amount ∧ amount + 1 ≤ g.streetBet p + g.stack p := by
  rw [accepts_iff hturn]
  refine and_congr_right fun helig => ?_
  have hpos := (eligibleToAct_iff.mp helig).1
  simp only [validateAction, saturating_total hr]
  by_cases hcall : g.amountToCall p = 0
  · rw [if_pos hcall]
    exact iff_of_false (by simp) (by omega)
  · rw [if_neg hcall]
    by_cases hrange : saturatingAdd g.maxBet (max g.lastRaiseSize bigBlind) ≤ amount ∧
        amount ≤ g.streetBet p + g.stack p - 1
    · rw [if_pos hrange]
      exact iff_of_true rfl ⟨by omega, hrange.1, by omega⟩
    · rw [if_neg hrange]
      exact iff_of_false (by simp) fun h => hrange ⟨h.2.1, by omega⟩

theorem accepts_allChips (helig : (g.seat p).eligibleToAct = true) : g.Accepts p (.allIn (g.allChips p)) := by
  rw [accepts_iff hturn, allChips_eq hr]
  have hpos := (eligibleToAct_iff.mp helig).1
  exact ⟨helig, saturating_total hr ▸ validateAction_allIn hpos⟩

end rules

/-! ## The menu is the rules' where it fits -/

/-- Amounts are accepted from the least one offered up to all the chips. -/
theorem offers_least {accepts : Nat → Prop} {offered : Option Nat} {total : Nat}
    (h : ∀ amount, accepts amount ↔ ∃ least, offered = some least ∧ least ≤ amount ∧ amount < total)
    (hlt : ∀ least, offered = some least → least < total) :
    (offered.isSome = true ↔ ∃ amount, accepts amount) ∧
      ∀ least, offered = some least → accepts least ∧ ∀ amount, accepts amount → least ≤ amount := by
  have hself : ∀ least, offered = some least → accepts least := fun least hleast =>
    (h least).mpr ⟨least, hleast, Nat.le_refl _, hlt least hleast⟩
  refine ⟨?_, ?_⟩
  · rw [Option.isSome_iff_exists]
    constructor
    · rintro ⟨least, hleast⟩
      exact ⟨least, hself least hleast⟩
    · rintro ⟨amount, hamount⟩
      obtain ⟨least, hleast, -⟩ := (h amount).mp hamount
      exact ⟨least, hleast⟩
  · intro least hleast
    refine ⟨hself least hleast, ?_⟩
    intro amount hamount
    obtain ⟨other, hother, hle, -⟩ := (h amount).mp hamount
    rw [hleast] at hother
    cases hother
    exact hle

section menu
variable {g : GameState} {action : Action} {entry entry' : RaiseEntry} {key : KeyCode} {keys : List KeyCode}

/-- A raise can be entered. -/
def Raises (g : GameState) : Prop := (g.availableActions.minRaise.isSome || g.availableActions.minBet.isSome) = true

variable (hturn : g.isTurn localSeat = true)
include hturn

/-- A menu that matches the rules fits. -/
theorem MenuMatches.fits (hr : g.InRange) (h : g.MenuMatches keys) : g.MenuFits := by
  obtain ⟨hrange, hleast, hbet⟩ := least_le hr localSeat
  have helig : (g.seat localSeat).eligibleToAct = true := by
    by_cases hcall : 0 < g.amountToCall localSeat
    · have hfold : g.availableActions.canFold = true := by
        rw [availableActions_eq hturn]
        simpa [AvailableActions.new] using hcall
      exact ((accepts_fold hturn).mp (h.fold.mp hfold)).1
    · have hcheck : g.availableActions.canCheck = true := by
        rw [availableActions_eq hturn]
        simp only [AvailableActions.new, decide_eq_true_eq]
        omega
      exact ((accepts_check hturn).mp (h.check.mp hcheck)).1
  have hpos := (eligibleToAct_iff.mp helig).1
  refine ⟨helig, ?_, ?_⟩
  · intro hcall
    have hmin : g.availableActions.minBet = some (min bigBlind (g.stack localSeat)) := by
      rw [availableActions_eq hturn]
      exact if_pos ⟨hcall, hpos⟩
    obtain ⟨-, -, hlow, hhigh⟩ := (accepts_bet hturn hr).mp (h.minBet _ hmin).1
    have hzero : g.maxBet = 0 := by
      by_contra hne
      rw [if_neg hne] at hlow
      unfold leastRaise at hlow
      unfold bigBlind u32Max at *
      omega
    rw [if_pos hzero] at hlow
    unfold bigBlind at *
    omega
  · intro hcall
    by_cases hoffered : wrap32 g.leastRaise < g.stack localSeat
    · have hmin : g.availableActions.minRaise = some (wrap32 g.leastRaise) := by
        rw [availableActions_eq hturn]
        exact if_pos ⟨hcall, hoffered⟩
      obtain ⟨-, -, hlow, hhigh⟩ := (accepts_raise hturn hr).mp (h.minRaise _ hmin).1
      have hfits : g.leastRaise ≤ u32Max := by omega
      rw [wrap32_of_le hfits] at hoffered
      exact Or.inl hoffered
    · refine Or.inr ⟨Nat.le_of_not_lt hoffered, ?_⟩
      by_contra hroom
      have hnone : g.availableActions.minRaise = none := by
        rw [availableActions_eq hturn]
        exact if_neg fun hboth => hoffered hboth.2
      have hraise : g.Accepts localSeat (.raise (min g.leastRaise u32Max)) :=
        (accepts_raise hturn hr).mpr ⟨helig, hcall, Nat.le_refl _, by omega⟩
      have hsome := h.raise.mpr ⟨_, hraise⟩
      rw [hnone] at hsome
      cases hsome

/-- The bet and the raise of a menu that fits, with the least amounts the rules accept. -/
theorem MenuFits.offers (hf : g.MenuFits) (hr : g.InRange) :
    (∀ amount, g.Accepts localSeat (.bet amount) ↔
      ∃ least, g.availableActions.minBet = some least ∧ least ≤ amount ∧ amount < g.allChips localSeat) ∧
      ∀ amount, g.Accepts localSeat (.raise amount) ↔
        ∃ least, g.availableActions.minRaise = some least ∧ least ≤ amount ∧ amount < g.allChips localSeat := by
  obtain ⟨helig, hopen, hfacing⟩ := hf
  obtain ⟨hrange, hleast, hbet⟩ := least_le hr localSeat
  have hpos := (eligibleToAct_iff.mp helig).1
  rw [availableActions_eq hturn, allChips_eq hr]
  constructor
  · intro amount
    rw [accepts_bet hturn hr]
    simp only [AvailableActions.new]
    by_cases hcall : g.amountToCall localSeat = 0
    · obtain ⟨hzero, hstack⟩ := hopen hcall
      rw [if_pos hzero, if_pos ⟨hcall, hpos⟩, Nat.min_eq_left (Nat.le_of_lt hstack)]
      constructor
      · rintro ⟨-, -, hlow, hhigh⟩
        exact ⟨bigBlind, rfl, hlow, hhigh⟩
      · rintro ⟨least, heq, hlow, hhigh⟩
        cases heq
        exact ⟨helig, hcall, hlow, hhigh⟩
    · rw [if_neg (show ¬(g.amountToCall localSeat = 0 ∧ 0 < g.stack localSeat) from fun hboth => hcall hboth.1)]
      exact iff_of_false (fun h => hcall h.2.1) (by simp)
  · intro amount
    rw [accepts_raise hturn hr]
    simp only [AvailableActions.new]
    by_cases hcall : 0 < g.amountToCall localSeat
    · rcases hfacing hcall with hlt | ⟨hshort, hcovered⟩
      · have hwrap : wrap32 g.leastRaise = g.leastRaise := wrap32_of_le (by omega)
        rw [hwrap, if_pos ⟨hcall, hlt⟩, Nat.min_eq_left (by omega)]
        constructor
        · rintro ⟨-, -, hlow, hhigh⟩
          exact ⟨g.leastRaise, rfl, hlow, hhigh⟩
        · rintro ⟨least, heq, hlow, hhigh⟩
          cases heq
          exact ⟨helig, hcall, hlow, hhigh⟩
      · rw [if_neg fun hboth => Nat.not_lt.mpr hshort hboth.2]
        refine iff_of_false ?_ (by simp)
        rintro ⟨-, -, hlow, hhigh⟩
        omega
    · rw [if_neg fun hboth => hcall hboth.1]
      exact iff_of_false (fun h => hcall h.2.1) (by simp)

/-- Where an amount is offered, the least one is below all of the seat's chips. -/
theorem MenuFits.least_lt (hf : g.MenuFits) (hr : g.InRange) :
    (∀ least, g.availableActions.minBet = some least → least < g.allChips localSeat) ∧
      ∀ least, g.availableActions.minRaise = some least → least < g.allChips localSeat := by
  obtain ⟨helig, hopen, hfacing⟩ := hf
  rw [availableActions_eq hturn, allChips_eq hr]
  simp only [AvailableActions.new]
  constructor
  · intro least h
    split at h
    · rename_i hboth
      have hstack := (hopen hboth.1).2
      cases h
      omega
    · cases h
  · intro least h
    split at h
    · rename_i hboth
      cases h
      omega
    · cases h

/-- The action a key or an entry submits is accepted. -/
theorem MenuFits.raiseAction (hf : g.MenuFits) (hr : g.InRange) (hraises : g.Raises) (typedBb : Nat) :
    g.Accepts localSeat (g.raiseAction typedBb) := by
  have helig := hf.1
  obtain ⟨hbets, hraise⟩ := hf.offers hturn hr
  unfold GameState.raiseAction
  dsimp only
  split
  · exact accepts_allChips hturn hr helig
  · rename_i hbelow
    have hoffered := availableActions_eq hturn
    unfold Raises at hraises
    split
    · rename_i hcall
      refine (hraise _).mpr ?_
      have hnone : g.availableActions.minBet = none := by
        rw [hoffered]
        exact if_neg fun hboth => by omega
      rw [hnone, Option.isSome_none, Bool.or_false] at hraises
      obtain ⟨least, hleast⟩ := Option.isSome_iff_exists.mp hraises
      have hmin : minRaiseChips g.availableActions = least := by rw [minRaiseChips, hleast, Option.getD_some]
      rw [hmin] at hbelow ⊢
      have hlt := (hf.least_lt hturn hr).2 least hleast
      exact ⟨least, hleast, by omega, by omega⟩
    · rename_i hcall
      refine (hbets _).mpr ?_
      have hnone : g.availableActions.minRaise = none := by
        rw [hoffered]
        exact if_neg fun hboth => hcall hboth.1
      rw [hnone, Option.isSome_none, Bool.false_or] at hraises
      obtain ⟨least, hleast⟩ := Option.isSome_iff_exists.mp hraises
      have hmin : minRaiseChips g.availableActions = least := by
        rw [minRaiseChips, hnone, Option.getD_none, hleast, Option.getD_some]
      rw [hmin] at hbelow ⊢
      have hlt := (hf.least_lt hturn hr).1 least hleast
      exact ⟨least, hleast, by omega, by omega⟩

theorem submitRaise_accepted (hf : g.MenuFits) (hr : g.InRange) (hraises : g.Raises)
    (h : (g.submitRaise entry).1 = some action) : g.Accepts localSeat action := by
  unfold submitRaise at h
  split at h
  · cases h
  · cases h
  · rename_i typedBb _ _
    cases h
    exact hf.raiseAction hturn hr hraises typedBb

theorem handleRaiseModeKey_accepted (hf : g.MenuFits) (hr : g.InRange) (hraises : g.Raises)
    (h : (g.handleRaiseModeKey entry key).1 = some action) : g.Accepts localSeat action := by
  cases key with
  | char c =>
    simp only [handleRaiseModeKey] at h
    split at h
    · cases h
    · split at h
      · exact submitRaise_accepted hturn hf hr hraises h
      · cases h
  | enter => exact submitRaise_accepted hturn hf hr hraises h
  | backspace | up | down | esc | other => cases h

/-- The call, or else the check, of the menu. -/
theorem callKey_accepted (helig : (g.seat localSeat).eligibleToAct = true) (h : (g.availableActions.canCall.map Action.call).or
    (if g.availableActions.canCheck then some Action.check else none) = some action) : g.Accepts localSeat action := by
  cases hcall : g.availableActions.canCall with
  | some amount =>
    rw [hcall, Option.map_some, Option.some_or] at h
    cases h
    rw [availableActions_eq hturn] at hcall
    simp only [AvailableActions.new] at hcall
    split at hcall
    · rename_i hboth
      cases hcall
      exact (accepts_call hturn).mpr ⟨helig, hboth.1, hboth.2, rfl⟩
    · cases hcall
  | none =>
    rw [hcall, Option.map_none, Option.none_or] at h
    split at h
    · rename_i hcheck
      cases h
      rw [availableActions_eq hturn] at hcheck
      exact (accepts_check hturn).mpr ⟨helig, by simpa [AvailableActions.new] using hcheck⟩
    · cases h

theorem handleKey_accepted (hf : g.MenuFits) (hr : g.InRange) (hmode : entry.raiseMode = true → g.Raises)
    (h : (g.handleKey entry key).1 = some action) : g.Accepts localSeat action := by
  have helig := hf.1
  unfold handleKey at h
  rw [if_neg (by simp [hturn])] at h
  split at h
  · rename_i hopen
    exact handleRaiseModeKey_accepted hturn hf hr (hmode hopen) h
  · dsimp only at h
    split at h
    · split at h
      · dsimp only at h
        split at h
        · rename_i hfold
          cases h
          rw [availableActions_eq hturn] at hfold
          exact (accepts_fold hturn).mpr ⟨helig, by simpa [AvailableActions.new] using hfold⟩
        · cases h
      · split at h
        · exact callKey_accepted hturn helig h
        · split at h
          · dsimp only at h
            split at h
            · cases h
              exact accepts_allChips hturn hr helig
            · cases h
          · split at h
            · split at h <;> cases h
            · cases h
    · cases h

omit hturn in
/-- Raise mode opens only where a raise or a bet is offered. -/
theorem handleKey_mode (hmode : entry.raiseMode = true → g.Raises) (h : (g.handleKey entry key).2.raiseMode = true) :
    g.Raises := by
  unfold handleKey at h
  split at h
  · exact hmode h
  · split at h
    · rename_i hopen
      exact hmode hopen
    · dsimp only at h
      split at h
      · split at h
        · exact hmode h
        · split at h
          · exact hmode h
          · split at h
            · exact hmode h
            · split at h
              · split at h
                · rename_i hraises
                  exact hraises
                · exact hmode h
              · exact hmode h
      · exact hmode h

theorem handleKeys_accepted (hf : g.MenuFits) (hr : g.InRange) (hmode : entry.raiseMode = true → g.Raises)
    (h : (g.handleKeys entry keys).1 = some action) : g.Accepts localSeat action := by
  induction keys generalizing entry with
  | nil => cases h
  | cons key rest ih =>
    unfold handleKeys at h
    split at h
    · rename_i submitted entry' hkey
      cases h
      exact handleKey_accepted hturn hf hr hmode (by rw [hkey])
    · rename_i entry' hkey
      exact ih (fun hopen => handleKey_mode hmode (by rw [hkey]; exact hopen)) h

/-! ## Conversions -/

omit hturn in
theorem submitRaise_overflowed :
    (g.submitRaise entry).2.overflowed = (entry.overflowed || entry.typedBb.any (2 ^ 31 ≤ ·)) := by
  unfold submitRaise
  cases entry.typedBb with
  | none => simp
  | some typedBb =>
    cases typedBb with
    | zero => simp
    | succ n =>
      have hfits : (!fitsU32 ((n + 1) * bigBlind)) = decide (2 ^ 31 ≤ n + 1) := by
        rw [Bool.eq_iff_iff, Bool.not_eq_true', decide_eq_true_eq, ← Bool.not_eq_true, fitsU32, decide_eq_true_eq]
        unfold bigBlind u32Max
        omega
      show (entry.overflowed || !fitsU32 ((n + 1) * bigBlind)) = _
      rw [hfits]
      rfl

theorem handleKey_overflowed : (g.handleKey entry key).2.overflowed =
    (entry.overflowed || entry.raiseMode && key.confirms && entry.typedBb.any (2 ^ 31 ≤ ·)) := by
  unfold handleKey
  rw [if_neg (by simp [hturn])]
  cases hmode : entry.raiseMode with
  | true =>
    rw [if_pos rfl, Bool.true_and]
    cases key with
    | char c =>
      simp only [handleRaiseModeKey]
      by_cases hdigit : c.isDigit = true
      · have hquiet : (c = 'r' || c = 'R') = false := by
          rw [Bool.eq_false_iff]
          intro hletter
          simp only [Bool.or_eq_true, decide_eq_true_eq] at hletter
          rcases hletter with rfl | rfl <;> exact absurd hdigit (by decide)
        rw [if_pos hdigit]
        simp [KeyCode.confirms, hquiet]
      · rw [if_neg hdigit]
        by_cases hletter : c = 'r' ∨ c = 'R'
        · have hconfirms : (KeyCode.char c).confirms = true := by simpa [KeyCode.confirms] using hletter
          rw [if_pos hletter, submitRaise_overflowed, hconfirms, Bool.true_and]
        · have hquiet : (KeyCode.char c).confirms = false := by simpa [KeyCode.confirms] using hletter
          rw [if_neg hletter, hquiet, Bool.false_and, Bool.or_false]
    | enter =>
      simp only [handleRaiseModeKey, submitRaise_overflowed]
      simp [KeyCode.confirms]
    | backspace | up | down | esc | other => simp [handleRaiseModeKey, KeyCode.confirms]
  | false =>
    rw [if_neg (by decide), Bool.false_and, Bool.false_and, Bool.or_false]
    dsimp only
    split
    · split
      · rfl
      · split
        · rfl
        · split
          · rfl
          · split
            · split <;> rfl
            · rfl
    · rfl

omit hturn in
/-- A flag that each key may raise is up after a turn when it was before, or a key raised it. -/
theorem handleKeys_flag {flag : RaiseEntry → Bool} {test : RaiseEntry → KeyCode → Bool}
    (hkey : ∀ entry key, flag (g.handleKey entry key).2 = (flag entry || test entry key)) (keys : List KeyCode)
    (entry : RaiseEntry) :
    flag (g.handleKeys entry keys).2 = (flag entry || g.someKey test entry keys) := by
  induction keys generalizing entry with
  | nil => simp [handleKeys, someKey]
  | cons key rest ih =>
    have hfirst := hkey entry key
    unfold handleKeys someKey
    cases hstep : g.handleKey entry key with
    | mk submitted entry' =>
      rw [hstep] at hfirst
      cases submitted with
      | some action =>
        dsimp only at hfirst ⊢
        rw [hfirst, Bool.or_false]
      | none =>
        dsimp only at hfirst ⊢
        rw [ih, hfirst, Bool.or_assoc]

theorem handleKeys_overflowed (keys : List KeyCode) (entry : RaiseEntry) :
    (g.handleKeys entry keys).2.overflowed = (entry.overflowed || g.confirmsHuge entry keys) :=
  handleKeys_flag (fun _ _ => handleKey_overflowed hturn) keys entry

omit hturn in
theorem stepUp_overflows (entry : RaiseEntry) :
    (!fitsU32 (entry.typedBb.getD 0 + 1)) = decide (entry.typedBb = some u32Max) := by
  cases hbb : entry.typedBb with
  | none => rfl
  | some typedBb =>
    have hle : typedBb ≤ u32Max := Numerals.parseUnsigned_le hbb
    rw [Bool.eq_iff_iff, Bool.not_eq_true', decide_eq_true_eq, ← Bool.not_eq_true, fitsU32, decide_eq_true_eq, Option.some.injEq,
      Option.getD_some]
    omega

theorem handleKey_steppedPast : (g.handleKey entry key).2.steppedPast =
    (entry.steppedPast || (entry.raiseMode && decide (key = .up) && decide (entry.typedBb = some u32Max))) := by
  have hsubmit : (g.submitRaise entry).2.steppedPast = entry.steppedPast := by
    unfold submitRaise
    split <;> rfl
  unfold handleKey
  rw [if_neg (by simp [hturn])]
  cases hmode : entry.raiseMode with
  | true =>
    rw [if_pos rfl, Bool.true_and]
    cases key with
    | up => simp [handleRaiseModeKey, stepUp_overflows]
    | char c =>
      simp only [handleRaiseModeKey]
      split
      · simp
      · split
        · simp [hsubmit]
        · simp
    | enter => simp [handleRaiseModeKey, hsubmit]
    | backspace | down | esc | other => simp [handleRaiseModeKey]
  | false =>
    rw [if_neg (by decide), Bool.false_and, Bool.false_and, Bool.or_false]
    dsimp only
    split
    · split
      · rfl
      · split
        · rfl
        · split
          · rfl
          · split
            · split <;> rfl
            · rfl
    · rfl

/-- The step of an up arrow leaves `u32` exactly when the largest of them is typed. -/
theorem handleKeys_steppedPast (keys : List KeyCode) (entry : RaiseEntry) :
    (g.handleKeys entry keys).2.steppedPast = (entry.steppedPast || g.stepsPast entry keys) :=
  handleKeys_flag (fun _ _ => handleKey_steppedPast hturn) keys entry

end menu

/-! ## Every reachable state -/

variable {g : GameState}

theorem AtTable.menu_matches (ha : AtTable g) (hturn : g.isTurn localSeat = true) (keys : List KeyCode) :
    g.MenuMatches keys ↔ g.MenuFits ∧ g.confirmsHuge .closed keys = false := by
  have hbetting : g.phase.betting = true := by
    simp only [isTurn, Bool.and_eq_true] at hturn
    exact hturn.2
  have hr := (ha.underway hbetting).range
  have hhuge := handleKeys_overflowed hturn keys .closed
  constructor
  · intro h
    refine ⟨h.fits hturn hr, ?_⟩
    rw [h.inRange] at hhuge
    exact hhuge.symm
  · rintro ⟨hf, hnone⟩
    have helig := hf.1
    obtain ⟨hbets, hraises⟩ := hf.offers hturn hr
    obtain ⟨hbetLt, hraiseLt⟩ := hf.least_lt hturn hr
    have hmenu := availableActions_eq hturn
    refine ⟨?_, ?_, ?_, ?_, ?_, ?_, ?_, ?_, ?_⟩
    · rw [accepts_fold hturn, hmenu]
      simp [AvailableActions.new, helig]
    · rw [accepts_check hturn, hmenu]
      simp [AvailableActions.new, helig]
    · rw [hmenu]
      simp only [accepts_call hturn, helig, true_and, AvailableActions.new]
      by_cases hcall : 0 < g.amountToCall localSeat ∧ g.amountToCall localSeat < g.stack localSeat
      · rw [if_pos hcall]
        exact iff_of_true rfl ⟨_, hcall.1, hcall.2, rfl⟩
      · rw [if_neg hcall]
        exact iff_of_false (by simp) fun ⟨_, hpos, hlt, _⟩ => hcall ⟨hpos, hlt⟩
    · exact (offers_least hbets hbetLt).1
    · exact (offers_least hraises hraiseLt).1
    · exact (offers_least hbets hbetLt).2
    · exact (offers_least hraises hraiseLt).2
    · intro action h
      exact handleKeys_accepted hturn hf hr (fun hopen => absurd hopen (by decide)) h
    · rw [hhuge, hnone]
      rfl

/-- In a state a game reaches with the local seat to act, the menu and the keys match the rules exactly where the
    menu fits and no key confirms 2^31 big blinds or more. -/
theorem menu_matches_rules (s : Nat) (deck : Deck) (ops : List GameOp) (hnew : (new s deck).panicked = false)
    (hrun : (new s deck).run ops = some g) (hturn : g.isTurn localSeat = true) (keys : List KeyCode) :
    g.MenuMatches keys ↔ g.MenuFits ∧ g.confirmsHuge .closed keys = false :=
  ((new_atTable (stack_of_new hnew) deck).run hrun).menu_matches hturn keys

/-- The first hand's button raises to three big blinds. -/
theorem menu_matches_raise : (new 100 .new).MenuMatches [.char 'r', .char '3', .enter] :=
  (menu_matches_rules 100 .new [] (by decide +kernel) rfl (by decide +kernel) _).mpr
    ⟨⟨by decide +kernel, by decide +kernel, by decide +kernel⟩, by decide +kernel⟩

/-- The big blind, with one big blind to add to a limp, submits a bet the rules refuse. -/
theorem limped_bet_refused : ∃ g, (new 100 .new).run [.command ⟨0, .fold⟩, .startNewHand .new, .command ⟨1, .call 1⟩] = some g ∧
    g.isTurn localSeat = true ∧ ¬g.MenuMatches [.char 'r', .char '1', .enter] := by
  refine ⟨_, rfl, by decide +kernel, ?_⟩
  intro h
  exact absurd (h.submits (.bet 2) (by decide +kernel)) (by unfold Accepts; decide +kernel)

end GameState

end OpenFelt
