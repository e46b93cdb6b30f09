/-
  OpenFelt.Training.Evaluation — policies played against each other over seeded deals
  (`src/training/evaluation.rs`).

  Translation. The fixed-width integers that a seed is made of are words; the counters are
  numbers. `DealPlanV1::seeded` and `make_policy`, which draw from a generator, are
  parameters, and an error is kept as it is and not as its text. `RunningStats` is the list
  of what is pushed, each block with its seed; the averages in floating point, the clock and
  the report's texts are left out.

  Proved: the two seats apart, a deal's place in a case is read back from its seed
  (`deriveSeed_injective`), so no two deals of a case share one, and the interval is over as
  many different seeds as it counts blocks (`deals_never_repeat`).
-/

import OpenFelt.Lib.Mixing
import OpenFelt.Training.Play

namespace OpenFelt

def maxEvaluationDealsPerTable : Nat := 1000000

def maxEvaluationTables : Nat := 1024

def maxEquitySamples : Nat := 100000

inductive AdversarialPolicy where
  | foldCheck
  | checkCall
  | potPressure
  | jam
  | equityPotOdds
  | randomLegal
  deriving DecidableEq, Repr

structure AdversarialEvaluationConfig where
  dealsPerTable : BitVec 32
  tableCounts : List (BitVec 16)
  seatCounts : List Nat
  heroPolicies : List AdversarialPolicy
  opponentPolicies : List AdversarialPolicy
  startingStack : Nat
  equitySamplesPerDecision : Nat
  baseSeed : BitVec 64
  deriving DecidableEq, Repr

inductive AdversarialEvaluationError where
  | invalidDealCount (count : BitVec 32)
  | invalidTableCount (count : BitVec 16)
  | duplicateTableCount (count : BitVec 16)
  | invalidSeatCount (count : Nat)
  | duplicateSeatCount (count : Nat)
  | missingHeroPolicies
  | missingOpponentPolicies
  | duplicateHeroPolicy (policy : AdversarialPolicy)
  | duplicateOpponentPolicy (policy : AdversarialPolicy)
  | invalidStartingStack
  | invalidEquitySamples (samples : Nat)
  deriving DecidableEq, Repr

/-! ## Seeds -/

def policyDiscriminator : AdversarialPolicy → BitVec 64
  | .foldCheck => 0x11
  | .checkCall => 0x22
  | .potPressure => 0x33
  | .jam => 0x44
  | .equityPotOdds => 0x55
  | .randomLegal => 0x66

/-- The three rounds of `derive_seed`. -/
def mixSeed (value : BitVec 64) : BitVec 64 :=
  let value := value ^^^ value >>> 30
  let value := value * 0xBF58476D1CE4E5B9
  let value := value ^^^ value >>> 27
  let value := value * 0x94D049BB133111EB
  value ^^^ value >>> 31

def deriveSeed (base : BitVec 64) (tableIndex : BitVec 16) (dealIndex : BitVec 32) (heroSeat policySeat : BitVec 8) : BitVec 64 :=
  let value := base ^^^ tableIndex.setWidth 64 <<< 48
  let value := value ^^^ dealIndex.setWidth 64 * 0x9E3779B97F4A7C15
  let value := value ^^^ heroSeat.setWidth 64 * 0xD1B54A32D192ED03
  let value := value ^^^ policySeat.setWidth 64 * 0x94D049BB133111EB
  mixSeed value

/-! ## Episodes -/

inductive EpisodeError where
  | tableSize (seats : Nat)
  | seat (index : Nat)
  | arena (error : ArenaError)
  | omittedHero
  | unfinished
  deriving DecidableEq, Repr

/-- `SeatId::new`. -/
def seatNumbered (index : Nat) : Except EpisodeError SeatId :=
  if h : index < maxTableSeats then .ok ⟨index, h⟩ else .error (.seat index)

/-- What an evaluation draws from seeds: the deals and the policies. -/
structure Seeded (σ : Type) where
  deal : BitVec 64 → DealPlanV1
  policy : AdversarialPolicy → BitVec 64 → Nat → Policy σ

/-- One deal of a case. -/
structure DealOf where
  tableIndex : BitVec 16
  dealIndex : BitVec 32
  deriving DecidableEq, Repr

section case
variable {σ : Type} (seeded : Seeded σ) (config : AdversarialEvaluationConfig) (heroPolicy opponentPolicy : AdversarialPolicy)
  (seatsPerTable : Nat) (tableReplicas : BitVec 16)

/-- The policies of an episode, each with its own seed. -/
def episodePolicies (deal : DealOf) (heroSeatIndex : Nat) (heroSeat : SeatId) (tableSize : TableSize) :
    List (SeatId × Policy σ) :=
  tableSize.seats.map fun seat =>
    let kind := if seat = heroSeat then heroPolicy else opponentPolicy
    let policySeed := deriveSeed (config.baseSeed ^^^ policyDiscriminator kind) deal.tableIndex deal.dealIndex
      (BitVec.ofNat 8 heroSeatIndex) (BitVec.ofNat 8 seat.val)
    (seat, seeded.policy kind policySeed config.equitySamplesPerDecision)

def runEpisode (deal : DealOf) (heroSeatIndex buttonIndex : Nat) (dealSeed : BitVec 64) :
    Except EpisodeError (Int × Nat × MultiwayPhase) :=
  match TableSize.new seatsPerTable, seatNumbered heroSeatIndex, seatNumbered buttonIndex with
  | none, _, _ => .error (.tableSize seatsPerTable)
  | some _, .error error, _ => .error error
  | some _, .ok _, .error error => .error error
  | some tableSize, .ok heroSeat, .ok button =>
    match TrainingArena.new {
        tableId := ⟨deal.tableIndex.toNat + 1⟩
        handId := ⟨deal.dealIndex.toNat + 1⟩
        tableSize := tableSize
        button := button
        seatStacks := tableSize.seats.map fun seat => (seat, config.startingStack)
        forcedPosts := []
        maxActions := maxHistoryActions
        recording := .minimal } (seeded.deal dealSeed) with
    | .error error => .error (.arena error)
    | .ok arena =>
      match arena.runToTerminalSummary
          (episodePolicies seeded config heroPolicy opponentPolicy deal heroSeatIndex heroSeat tableSize) with
      | none => .error .unfinished
      | some (.error error) => .error (.arena error)
      | some (.ok summary) =>
        match summary.chipDeltas.lookup heroSeat with
        | none => .error .omittedHero
        | some heroDelta => .ok (heroDelta, summary.acceptedActions, summary.terminalPhase)

/-! ## Cases -/

/-- A block whose rotation is complete, with the hero's chips over all its seats. -/
structure DealBlock where
  dealSeed : BitVec 64
  delta : Int
  deriving DecidableEq, Repr

structure AdversarialTally where
  completed : Nat
  failed : Nat
  acceptedActions : Nat
  showdowns : Nat
  positive : Nat
  breakEven : Nat
  busts : Nat
  totalDelta : Int
  firstError : Option EpisodeError
  deriving DecidableEq, Repr

def AdversarialTally.empty : AdversarialTally := ⟨0, 0, 0, 0, 0, 0, 0, 0, none⟩

def AdversarialTally.add (tally : AdversarialTally) : Except EpisodeError (Int × Nat × MultiwayPhase) → AdversarialTally
  | .ok (delta, actions, terminalPhase) => { tally with
      completed := tally.completed + 1
      acceptedActions := tally.acceptedActions + actions
      showdowns := tally.showdowns + if terminalPhase = .showdown then 1 else 0
      positive := tally.positive + if 0 < delta then 1 else 0
      breakEven := tally.breakEven + if delta = 0 then 1 else 0
      busts := tally.busts + if delta ≤ -(config.startingStack : Int) then 1 else 0
      totalDelta := tally.totalDelta + delta }
  | .error error => { tally with failed := tally.failed + 1, firstError := tally.firstError.or (some error) }

structure AdversarialCase where
  heroPolicy : AdversarialPolicy
  opponentPolicy : AdversarialPolicy
  seatsPerTable : Nat
  tableReplicas : BitVec 16
  distinctDealsPerTable : BitVec 32
  independentDealBlocks : Nat
  pairedSeatRotationEpisodes : Nat
  tally : AdversarialTally
  deriving DecidableEq, Repr

/-- The seed of a deal, which every episode of its block is dealt from. -/
def dealSeed (deal : DealOf) : BitVec 64 := deriveSeed config.baseSeed deal.tableIndex deal.dealIndex 0 0

/-- The hero at every seat of one deal. -/
def runDeal (deal : DealOf) : List (Except EpisodeError (Int × Nat × MultiwayPhase)) :=
  (List.range seatsPerTable).map fun heroSeatIndex =>
    runEpisode seeded config heroPolicy opponentPolicy seatsPerTable deal heroSeatIndex (deal.dealIndex.toNat % seatsPerTable)
      (dealSeed config deal)

/-- The deals of a case, table by table. -/
def dealsOf : List DealOf :=
  (List.range tableReplicas.toNat).flatMap fun tableIndex =>
    (List.range config.dealsPerTable.toNat).map fun dealIndex => ⟨BitVec.ofNat 16 tableIndex, BitVec.ofNat 32 dealIndex⟩

/-- What is pushed on the statistics: the block of every deal that ran at all seats. -/
def dealBlocks : List DealBlock :=
  (dealsOf config tableReplicas).filterMap fun deal =>
    let deltas := (runDeal seeded config heroPolicy opponentPolicy seatsPerTable deal).filterMap fun episode =>
        episode.toOption.map (·.1)
    if deltas.length = seatsPerTable then some ⟨dealSeed config deal, deltas.sum⟩ else none

def runCase : AdversarialCase where
  heroPolicy := heroPolicy
  opponentPolicy := opponentPolicy
  seatsPerTable := seatsPerTable
  tableReplicas := tableReplicas
  distinctDealsPerTable := config.dealsPerTable
  independentDealBlocks := (dealBlocks seeded config heroPolicy opponentPolicy seatsPerTable tableReplicas).length
  pairedSeatRotationEpisodes := tableReplicas.toNat * config.dealsPerTable.toNat * seatsPerTable
  tally := ((dealsOf config tableReplicas).flatMap fun deal =>
    runDeal seeded config heroPolicy opponentPolicy seatsPerTable deal).foldl (AdversarialTally.add config) .empty

end case

/-! ## The evaluation -/

/-- `reject_duplicates`; `seen` are the values before. -/
def rejectDuplicates {α : Type} [DecidableEq α] (duplicate : α → AdversarialEvaluationError) :
    List α → List α → Except AdversarialEvaluationError Unit
  | _, [] => .ok ()
  | seen, value :: rest =>
    if seen.contains value then .error (duplicate value) else rejectDuplicates duplicate (value :: seen) rest

/-- `validate_config`. -/
def AdversarialEvaluationConfig.validate (config : AdversarialEvaluationConfig) : Except AdversarialEvaluationError Unit := do
  if config.dealsPerTable = 0 ∨ maxEvaluationDealsPerTable < config.dealsPerTable.toNat then
    throw (.invalidDealCount config.dealsPerTable)
  if config.startingStack = 0 then throw .invalidStartingStack
  if config.equitySamplesPerDecision = 0 ∨ maxEquitySamples < config.equitySamplesPerDecision then
    throw (.invalidEquitySamples config.equitySamplesPerDecision)
  if config.heroPolicies.isEmpty then throw .missingHeroPolicies
  if config.opponentPolicies.isEmpty then throw .missingOpponentPolicies
  rejectDuplicates .duplicateTableCount [] config.tableCounts
  if let some count := config.tableCounts.find? fun count => count = 0 ∨ maxEvaluationTables < count.toNat then
    throw (.invalidTableCount count)
  rejectDuplicates .duplicateSeatCount [] config.seatCounts
  if let some count := config.seatCounts.find? fun count => !(2 ≤ count ∧ count ≤ maxTableSeats) then
    throw (.invalidSeatCount count)
  rejectDuplicates .duplicateHeroPolicy [] config.heroPolicies
  rejectDuplicates .duplicateOpponentPolicy [] config.opponentPolicies

/-- `run_adversarial_evaluation`, its cases. -/
def runAdversarialEvaluation {σ : Type} (seeded : Seeded σ) (config : AdversarialEvaluationConfig) :
    Except AdversarialEvaluationError (List AdversarialCase) :=
  config.validate.map fun () =>
    config.heroPolicies.flatMap fun hero => config.opponentPolicies.flatMap fun opponent =>
      config.seatCounts.flatMap fun seats => config.tableCounts.map fun tables => runCase seeded config hero opponent seats tables

/-! ## No deal repeats -/

section seeds
variable {base : BitVec 64} {config : AdversarialEvaluationConfig}

theorem mixSeed_injective : Function.Injective mixSeed := by
  have hfirst := @Mixing.xorShift_injective 64 30 (by decide)
  have hsecond := @Mixing.mul_odd_injective 64 0xBF58476D1CE4E5B9 (by decide)
  have hthird := @Mixing.xorShift_injective 64 27 (by decide)
  have hfourth := @Mixing.mul_odd_injective 64 0x94D049BB133111EB (by decide)
  have hlast := @Mixing.xorShift_injective 64 31 (by decide)
  intro x y h
  exact hfirst (hsecond (hthird (hfourth (hlast h))))

/-- The low 48 bits tell the deal, and the bits above them then the table. -/
theorem deriveSeed_injective (base : BitVec 64) :
    Function.Injective fun deal : DealOf => deriveSeed base deal.tableIndex deal.dealIndex 0 0 := by
  rintro ⟨table, deal⟩ ⟨table', deal'⟩ h
  have hmixed : base ^^^ table.setWidth 64 <<< 48 ^^^ deal.setWidth 64 * 0x9E3779B97F4A7C15 =
      base ^^^ table'.setWidth 64 <<< 48 ^^^ deal'.setWidth 64 * 0x9E3779B97F4A7C15 := by
    have := mixSeed_injective h
    simpa using this
  have hpacked : table.setWidth 64 <<< 48 ^^^ deal.setWidth 64 * 0x9E3779B97F4A7C15 =
      table'.setWidth 64 <<< 48 ^^^ deal'.setWidth 64 * 0x9E3779B97F4A7C15 := by
    rw [BitVec.xor_assoc, BitVec.xor_assoc] at hmixed
    exact (BitVec.xor_right_inj base).mp hmixed
  have hsmall : ∀ d : BitVec 32, (d.setWidth 64).toNat < 2 ^ 48 := by
    intro d
    rw [BitVec.toNat_setWidth_of_le (by decide)]
    exact Nat.lt_trans d.isLt (by decide)
  have hdeal : deal.setWidth 64 = deal'.setWidth 64 :=
    Mixing.mul_odd_low (by decide) (by decide) (hsmall deal) (hsmall deal') (Mixing.shiftLeft_xor hpacked (by decide))
  have htable : table.setWidth 64 = table'.setWidth 64 := by
    have hfits : ∀ t : BitVec 16, (t.setWidth 64).toNat * 2 ^ 48 < 2 ^ 64 := by
      intro t
      rw [BitVec.toNat_setWidth_of_le (by decide)]
      have := t.isLt
      omega
    rw [hdeal] at hpacked
    exact Mixing.shiftLeft_inj (hfits table) (hfits table') ((BitVec.xor_left_inj _).mp hpacked)
  have hback : ∀ {n : Nat}, n ≤ 64 → ∀ x y : BitVec n, x.setWidth 64 = y.setWidth 64 → x = y := by
    intro n hn x y hxy
    have hval := congrArg BitVec.toNat hxy
    rw [BitVec.toNat_setWidth_of_le hn, BitVec.toNat_setWidth_of_le hn] at hval
    exact BitVec.eq_of_toNat_eq hval
  rw [hback (by decide) _ _ hdeal, hback (by decide) _ _ htable]

/-- The counters of the two loops stay within their words. -/
theorem nodup_dealsOf (config : AdversarialEvaluationConfig) (tableReplicas : BitVec 16) :
    (dealsOf config tableReplicas).Nodup := by
  have hinj : ∀ {n bound i j : Nat}, bound ≤ 2 ^ n → i < bound → j < bound → BitVec.ofNat n i = BitVec.ofNat n j → i = j := by
    intro n bound i j hbound hi hj h
    have hval := congrArg BitVec.toNat h
    rwa [BitVec.toNat_ofNat, BitVec.toNat_ofNat, Nat.mod_eq_of_lt (by omega), Nat.mod_eq_of_lt (by omega)] at hval
  have htables := tableReplicas.isLt
  have hdeals := config.dealsPerTable.isLt
  unfold dealsOf
  rw [List.nodup_flatMap]
  constructor
  · intro tableIndex _
    refine List.Nodup.map_on ?_ List.nodup_range
    intro i hi j hj h
    exact hinj hdeals.le (List.mem_range.mp hi) (List.mem_range.mp hj) (DealOf.mk.inj h).2
  · refine List.nodup_range.imp_of_mem ?_
    intro i j hi hj hne deal hleft hright
    obtain ⟨_, _, rfl⟩ := List.mem_map.mp hleft
    obtain ⟨_, _, hsame⟩ := List.mem_map.mp hright
    exact hne (hinj htables.le (List.mem_range.mp hj) (List.mem_range.mp hi) (DealOf.mk.inj hsame).1).symm

theorem nodup_dealSeeds (config : AdversarialEvaluationConfig) (tableReplicas : BitVec 16) :
    ((dealsOf config tableReplicas).map (dealSeed config)).Nodup :=
  (nodup_dealsOf config tableReplicas).map (deriveSeed_injective config.baseSeed)

/-- The blocks pushed are those of some of the deals, in their order. -/
theorem dealBlocks_seeds {σ : Type} (seeded : Seeded σ) (hero opponent : AdversarialPolicy) (seats : Nat)
    (tableReplicas : BitVec 16) :
    ((dealBlocks seeded config hero opponent seats tableReplicas).map (·.dealSeed)).Sublist
      ((dealsOf config tableReplicas).map (dealSeed config)) := by
  unfold dealBlocks
  generalize dealsOf config tableReplicas = deals
  induction deals with
  | nil => exact List.Sublist.slnil
  | cons deal rest ih =>
    rw [List.filterMap_cons]
    dsimp only
    split
    · rename_i hnone
      exact List.Sublist.cons _ ih
    · rename_i block hsome
      split at hsome
      · cases hsome
        exact List.Sublist.cons_cons _ ih
      · cases hsome

end seeds

/-- No two deals have one seed, and the interval is over blocks of as many different seeds as it counts. -/
theorem deals_never_repeat (base : BitVec 64) :
    (Function.Injective fun deal : BitVec 16 × BitVec 32 => deriveSeed base deal.1 deal.2 0 0) ∧
      ∀ {σ : Type} (seeded : Seeded σ) (config : AdversarialEvaluationConfig) (cases : List AdversarialCase),
        runAdversarialEvaluation seeded config = .ok cases → ∀ c ∈ cases,
          ((dealsOf config c.tableReplicas).map (dealSeed config)).Nodup ∧
          ∃ blocks, blocks = dealBlocks seeded config c.heroPolicy c.opponentPolicy c.seatsPerTable c.tableReplicas ∧
            c.independentDealBlocks = blocks.length ∧ (blocks.map (·.dealSeed)).Nodup := by
  constructor
  · rintro ⟨table, deal⟩ ⟨table', deal'⟩ h
    have hsame : (⟨table, deal⟩ : DealOf) = ⟨table', deal'⟩ := deriveSeed_injective base h
    cases hsame
    rfl
  · intro σ seeded config cases h c hc
    have hcase : ∃ hero opponent seats tables, c = runCase seeded config hero opponent seats tables := by
      unfold runAdversarialEvaluation at h
      cases hvalid : config.validate with
      | error error =>
        rw [hvalid] at h
        cases h
      | ok u =>
        rw [hvalid] at h
        cases h
        simp only [List.mem_flatMap, List.mem_map] at hc
        obtain ⟨hero, _, opponent, _, seats, _, tables, _, rfl⟩ := hc
        exact ⟨hero, opponent, seats, tables, rfl⟩
    obtain ⟨hero, opponent, seats, tables, rfl⟩ := hcase
    have hseeds := nodup_dealSeeds config tables
    exact ⟨hseeds, _, rfl, rfl, (dealBlocks_seeds seeded hero opponent seats tables).nodup hseeds⟩

/-- Ten deals at each of two tables, heads up. -/
def twoTables : AdversarialEvaluationConfig where
  dealsPerTable := 10
  tableCounts := [2]
  seatCounts := [2]
  heroPolicies := [.checkCall]
  opponentPolicies := [.jam]
  startingStack := 100
  equitySamplesPerDecision := 64
  baseSeed := 1

/-- Every deal in one order, and everybody all in. -/
def allJam : Seeded Unit := ⟨fun _ => ⟨dealPlanVersion, Deck.new.cards⟩, fun _ _ _ => ⟨(), fun _ _ => (.ok .allIn, ())⟩⟩

theorem deals_never_repeat_tables : ((dealsOf twoTables 2).map (dealSeed twoTables)).Nodup :=
  ((deals_never_repeat 1).2 allJam twoTables [runCase allJam twoTables .checkCall .jam 2 2] rfl _ (List.mem_singleton_self _)).1

end OpenFelt
