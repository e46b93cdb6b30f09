/-
  OpenFelt.Registry.Tournament — a single-table freezeout: its structure, its clock and
  its standings (`src/tournament.rs`).

  Translation. A `&mut self` method gives its result and the controller left. Fixed-width
  counters are `Nat`, cut where the source saturates; the `u32` sums of shares and awards
  wrap, as in a release build. `apply_payouts` panics at a whole share past `u32`
  (`payoutPanics`); the awards beyond that point are those of the numbers as they are.
  A `BTreeSet` is an `OrdMap` to `Unit`.
  `tick_between_hands` turns its loop at most twice more than it has milliseconds to spend,
  since a turn that spends none ends a break or a level; `tickLoop` is given that many.
-/

import Mathlib.Data.List.Sort
import OpenFelt.Game.Table
import OpenFelt.Lib.OrdMap
import OpenFelt.Protocol.RingHistory

namespace OpenFelt

def maxLevels : Nat := 64

def payoutBasisPoints : Nat := 10000

structure TournamentLevel where
  smallBlind : Nat
  bigBlind : Nat
  ante : Nat
  durationSeconds : Nat
  breakAfterSeconds : Nat
  deriving DecidableEq, Repr

def TournamentLevel.blinds (level : TournamentLevel) : BlindValues := ⟨level.smallBlind, level.bigBlind, level.ante⟩

structure TournamentPayoutPlan where
  pool : Nat
  sharesBps : List Nat
  deriving DecidableEq, Repr

structure TournamentConfig where
  name : String
  entrants : Nat
  startingStack : Nat
  levels : List TournamentLevel
  payout : TournamentPayoutPlan
  joinCode : String
  deriving DecidableEq, Repr

inductive TournamentError where
  | invalidName
  | invalidEntrants
  | invalidJoinCode
  | invalidStartingStack
  | invalidLevels
  | invalidPayout
  | configurationLocked
  | registrationFull
  | registrationIncomplete
  | duplicateRegistration
  | invalidSeat
  | notRunning
  | alreadyComplete
  | invalidHandResult
  | duplicateElimination
  deriving DecidableEq, Repr

def TournamentError.message : TournamentError → String
  | invalidName => "tournament name must contain 1-32 bytes"
  | invalidEntrants => "single-table tournament requires 2-9 entrants"
  | invalidJoinCode => "private invite verifier must contain 24-96 visible bytes"
  | invalidStartingStack => "starting stack is outside bounds or below 20 big blinds"
  | invalidLevels => "blind/ante level schedule is invalid"
  | invalidPayout => "play-money payout plan is invalid"
  | configurationLocked => "tournament configuration and registration are locked"
  | registrationFull => "tournament registration is full"
  | registrationIncomplete => "all configured entrants must register before start"
  | duplicateRegistration => "player or seat is already registered"
  | invalidSeat => "seat is outside tournament capacity"
  | notRunning => "tournament is not running"
  | alreadyComplete => "tournament is already complete"
  | invalidHandResult => "hand result does not match registered tournament seats"
  | duplicateElimination => "entrant was eliminated more than once"

/-! ## Configuration -/

/-- `char::is_whitespace`: Unicode's `White_Space`. -/
def whitespace (c : Char) : Bool :=
  let n := c.toNat
  (9 ≤ n && n ≤ 13) || n = 0x20 || n = 0x85 || n = 0xA0 || n = 0x1680 || (0x2000 ≤ n && n ≤ 0x200A) ||
    n = 0x2028 || n = 0x2029 || n = 0x202F || n = 0x205F || n = 0x3000

/-- `u8::is_ascii_graphic`, for every byte of a text. -/
def graphic (c : Char) : Bool := 0x21 ≤ c.toNat && c.toNat ≤ 0x7E

/-- The order of tuples. -/
def BlindValues.below (a b : BlindValues) : Bool :=
  a.smallBlind < b.smallBlind || a.smallBlind = b.smallBlind &&
    (a.bigBlind < b.bigBlind || a.bigBlind = b.bigBlind && a.ante < b.ante)

/-- Each level is well formed and none is below the one before it. -/
def levelsValid : BlindValues → List TournamentLevel → Bool
  | _, [] => true
  | prior, level :: rest =>
    level.blinds.accepted && (60 ≤ level.durationSeconds && level.durationSeconds ≤ 7200) &&
      level.breakAfterSeconds ≤ 1800 && !level.blinds.below prior && levelsValid level.blinds rest

namespace TournamentConfig

variable (c : TournamentConfig)

def validate : Except TournamentError Unit :=
  if c.entrants < 2 || 9 < c.entrants then .error .invalidEntrants
  else if c.name.toList.all whitespace || 32 < c.name.utf8ByteSize then .error .invalidName
  else if !c.joinCode.isEmpty && ((c.joinCode.utf8ByteSize < 4 || 96 < c.joinCode.utf8ByteSize) ||
      !c.joinCode.toList.all fun b => graphic b || b = ' ') then .error .invalidJoinCode
  else if c.levels.isEmpty || maxLevels < c.levels.length then .error .invalidLevels
  else if !levelsValid ⟨0, 0, 0⟩ c.levels then .error .invalidLevels
  else if (c.startingStack < 100 || 1000000 < c.startingStack) ||
      c.levels.head?.any fun first => c.startingStack < min (first.bigBlind * 20) u32Max then .error .invalidStartingStack
  else if (c.payout.pool < 1 || 1000000 < c.payout.pool) || c.payout.sharesBps.isEmpty || 3 < c.payout.sharesBps.length ||
      c.entrants < c.payout.sharesBps.length || c.payout.sharesBps.contains 0 ||
      c.payout.sharesBps.sum % 2 ^ 32 ≠ payoutBasisPoints then .error .invalidPayout
  else .ok ()

def publicCopy : TournamentConfig := { c with joinCode := "" }

end TournamentConfig

/-! ## The controller -/

inductive TournamentStatus where
  | registering
  | running
  | break
  | complete
  | cancelled
  deriving DecidableEq, Repr

structure TournamentEntrant where
  player : PlayerId
  seat : SeatId
  deriving DecidableEq, Repr

structure TournamentStanding where
  player : PlayerId
  seat : SeatId
  place : Nat
  payout : Nat
  deriving DecidableEq, Repr

structure TournamentPublicState where
  status : TournamentStatus
  entrants : Nat
  registered : Nat
  remaining : Nat
  levelNumber : Nat
  level : TournamentLevel
  levelRemainingMillis : Nat
  breakRemainingMillis : Nat
  handsCompleted : Nat
  standings : List TournamentStanding
  payoutPool : Nat
  deriving DecidableEq, Repr

structure TournamentController where
  config : TournamentConfig
  status : TournamentStatus
  entrants : OrdMap PlayerId SeatId
  remaining : OrdMap PlayerId Unit
  levelIndex : Nat
  levelElapsedMillis : Nat
  breakRemainingMillis : Nat
  handsCompleted : Nat
  standings : List TournamentStanding
  deriving DecidableEq

namespace TournamentController

variable (c : TournamentController)

def new (config : TournamentConfig) : Except TournamentError TournamentController :=
  match config.validate with
  | .error error => .error error
  | .ok () => .ok {
      config := { config with joinCode := "" }
      status := .registering
      entrants := .empty
      remaining := .empty
      levelIndex := 0
      levelElapsedMillis := 0
      breakRemainingMillis := 0
      handsCompleted := 0
      standings := [] }

def register (entrant : TournamentEntrant) : Except TournamentError Unit × TournamentController :=
  if c.status ≠ .registering then (.error .configurationLocked, c)
  else if c.config.entrants ≤ c.entrants.size then (.error .registrationFull, c)
  else if c.entrants.contains entrant.player || c.entrants.values.any (· = entrant.seat) then
    (.error .duplicateRegistration, c)
  else if c.config.entrants ≤ entrant.seat.val then (.error .invalidSeat, c)
  else (.ok (), { c with
    entrants := c.entrants.insert entrant.player entrant.seat
    remaining := c.remaining.insert entrant.player () })

def unregister (player : PlayerId) : Except TournamentError Unit × TournamentController :=
  if c.status ≠ .registering then (.error .configurationLocked, c)
  else (.ok (), { c with entrants := c.entrants.erase player, remaining := c.remaining.erase player })

def start : Except TournamentError Unit × TournamentController :=
  if c.status ≠ .registering then (.error .configurationLocked, c)
  else if c.entrants.size ≠ c.config.entrants then (.error .registrationIncomplete, c)
  else (.ok (), { c with status := .running })

def cancel : Except TournamentError Unit × TournamentController :=
  if c.status ≠ .registering then (.error .configurationLocked, c)
  else (.ok (), { c with status := .cancelled })

/-- The level in force; a schedule has one at `level_index`. -/
def level : TournamentLevel := c.config.levels.getD c.levelIndex ⟨0, 0, 0, 0, 0⟩

def currentBlinds : BlindValues := c.level.blinds

/-- The level's length in milliseconds. -/
def duration : Nat := min (c.level.durationSeconds * 1000) u64Max

/-- One turn of the clock's loop: what it leaves to spend. -/
def tickOnce (elapsed : Nat) : Nat × TournamentController :=
  if c.status = .break then
    let consumed := min elapsed c.breakRemainingMillis
    let left := c.breakRemainingMillis - consumed
    (elapsed - consumed, { c with
      breakRemainingMillis := left
      status := if left = 0 then .running else c.status })
  else
    let consumed := min elapsed (c.duration - c.levelElapsedMillis)
    let ticked := { c with levelElapsedMillis := c.levelElapsedMillis + consumed }
    (elapsed - consumed,
      if c.duration ≤ ticked.levelElapsedMillis then
        { ticked with
          levelElapsedMillis := 0
          levelIndex := min (c.levelIndex + 1) (c.config.levels.length - 1)
          status := if 0 < c.level.breakAfterSeconds then .break else c.status
          breakRemainingMillis :=
            if 0 < c.level.breakAfterSeconds then min (c.level.breakAfterSeconds * 1000) u64Max
            else c.breakRemainingMillis }
      else ticked)

def tickLoop : Nat → Nat → TournamentController → TournamentController
  | 0, _, c => c
  | fuel + 1, elapsed, c =>
    if elapsed = 0 then c
    else
      let (elapsed, c) := c.tickOnce elapsed
      tickLoop fuel elapsed c

def tickBetweenHands (elapsedMillis : Nat) : TournamentController :=
  if c.status = .running || c.status = .break then tickLoop (elapsedMillis + 2) elapsedMillis c else c

/-! ## Hands -/

/-- `collect` into a map: the last stack given for a seat counts. -/
def stacksBySeat (entries : List (SeatId × Nat)) : OrdMap SeatId Nat :=
  entries.foldl (fun m (seat, stack) => m.insert seat stack) .empty

/-- The seats that lost all they had, with what they had: fewest chips first, then by seat. -/
def bustedSeats (before after : OrdMap SeatId Nat) : List (SeatId × Nat) :=
  (before.entries.filter fun (seat, stack) => 0 < stack && after.find? seat = some 0).insertionSort
    fun a b => a.2 < b.2 ∨ a.2 = b.2 ∧ a.1 ≤ b.1

/-- One standing for each busted seat, `index` places up from the field there was. -/
def eliminate (remainingBefore : Nat) : Nat → List (SeatId × Nat) → TournamentController →
    Except TournamentError Unit × TournamentController
  | _, [], c => (.ok (), c)
  | index, (seat, _) :: rest, c =>
    match c.entrants.entries.find? fun entrant => entrant.2 = seat with
    | none => (.error .invalidHandResult, c)
    | some (player, _) =>
      if !c.remaining.contains player then (.error .duplicateElimination, c)
      else
        let c := { c with remaining := c.remaining.erase player }
        let place := remainingBefore - index
        if 255 < place then (.error .invalidHandResult, c)
        else eliminate remainingBefore (index + 1) rest { c with standings := c.standings ++ [⟨player, seat, place, 0⟩] }

/-- Each place's whole share, and the fraction it falls short by, in basis points. -/
def wholeShares (plan : TournamentPayoutPlan) : List (Nat × Nat × Nat) :=
  plan.sharesBps.zipIdx.map fun (share, index) =>
    (index + 1, plan.pool * share / payoutBasisPoints, plan.pool * share % payoutBasisPoints)

/-- `expect("bounded pool fits u32")`: paying the plan out panics. -/
def payoutPanics (plan : TournamentPayoutPlan) : Bool := (wholeShares plan).any fun award => u32Max < award.2.1

/-- The chips left over go one each to the largest fractions, the better place first. -/
def awardsOf (plan : TournamentPayoutPlan) : List (Nat × Nat × Nat) :=
  let awards := wholeShares plan
  let assigned := (awards.map fun award => award.2.1).sum % 2 ^ 32
  let remainder := (plan.pool + 2 ^ 32 - assigned) % 2 ^ 32
  let ranked := awards.insertionSort fun a b => b.2.2 < a.2.2 ∨ a.2.2 = b.2.2 ∧ a.1 ≤ b.1
  ranked.zipIdx.map fun (award, index) =>
    (award.1, if index < remainder then (award.2.1 + 1) % 2 ^ 32 else award.2.1, award.2.2)

def applyPayouts : TournamentController :=
  let awards := awardsOf c.config.payout
  { c with standings := c.standings.map fun standing =>
      { standing with
        payout := (awards.findSome? fun award => if award.1 = standing.place then some award.2.1 else none).getD 0 } }

/-- With one player left that player wins. -/
def crown : TournamentController :=
  match c.remaining.keys with
  | [winner] =>
    let seat := (c.entrants.find? winner).getD 0
    let crowned : TournamentController := { c with standings := c.standings ++ [⟨winner, seat, 1, 0⟩] }
    { crowned.applyPayouts with status := .complete }
  | _ => c

def completeHand (startingStacks finalStacks : List (SeatId × Nat)) : Except TournamentError Unit × TournamentController :=
  if c.status = .complete then (.error .alreadyComplete, c)
  else if ¬ (c.status = .running ∨ c.status = .break) then (.error .notRunning, c)
  else
    let before := stacksBySeat startingStacks
    let after := stacksBySeat finalStacks
    if before.size ≠ after.size || before.keys.any fun seat => !after.contains seat then (.error .invalidHandResult, c)
    else
      match eliminate c.remaining.size 0 (bustedSeats before after) c with
      | (.error error, c) => (.error error, c)
      | (.ok (), c) => (.ok (), { c with handsCompleted := saturatingAdd64 c.handsCompleted 1 }.crown)

def publicState : TournamentPublicState where
  status := c.status
  entrants := c.config.entrants
  registered := c.entrants.size
  remaining := c.remaining.size
  levelNumber := c.levelIndex + 1
  level := c.level
  levelRemainingMillis := c.duration - c.levelElapsedMillis
  breakRemainingMillis := c.breakRemainingMillis
  handsCompleted := c.handsCompleted
  standings := c.standings.insertionSort fun a b => a.place ≤ b.place
  payoutPool := c.config.payout.pool

end TournamentController

end OpenFelt
