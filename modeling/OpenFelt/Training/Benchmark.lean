/-
  OpenFelt.Training.Benchmark — hands played by several workers at once
  (`src/training/benchmark.rs`).

  Translation. A worker plays every hand whose index leaves its own as the remainder; the
  workers share nothing and are joined in order. The deals, the policies that are drawn
  from seeds and the size of an episode's JSON are parameters. A case has at most 100
  million hands, so no index of one wraps. Left out: the clock, the rates in floating point
  and the texts.

  `benchmark_partition`: each case plays every hand of its range once, whatever the number
  of workers, and its totals are those of the hands; a hand that is recorded in full counts
  the actions that it counts when it is not.
-/

import OpenFelt.Training.Evaluation
import Mathlib.Data.List.Nodup
import Mathlib.Data.List.Range

namespace OpenFelt

def maxBenchmarkHandsPerCase : Nat := 100000000

def maxBenchmarkWorkers : Nat := 256

inductive BenchmarkPolicy where
  | checkCall
  | randomLegal
  deriving DecidableEq, Repr

inductive BenchmarkRecording where
  | minimal
  | fullJson
  deriving DecidableEq, Repr

structure BenchmarkConfig where
  handsPerCase : Nat
  workerCounts : List Nat
  policies : List BenchmarkPolicy
  recordings : List BenchmarkRecording
  startingStack : Nat
  baseSeed : BitVec 64
  deriving DecidableEq, Repr

inductive BenchmarkError where
  | invalidHandCount (count : Nat)
  | invalidStartingStack
  | missingPolicies
  | missingRecordingModes
  | invalidWorkerCount (count : Nat)
  | duplicateWorkerCount (count : Nat)
  deriving DecidableEq, Repr

/-- Why a hand is not counted as completed. -/
inductive HandFailure where
  | arena (error : ArenaError)
  | json
  | unfinished
  deriving DecidableEq, Repr

/-- The actions of a hand and the bytes of its trajectory. -/
abbrev HandOutcome : Type := Except HandFailure (Nat × Nat)

/-- What a benchmark draws from seeds, and the bytes of an episode. -/
structure BenchmarkDraws (σ : Type) where
  deal : BitVec 64 → DealPlanV1
  checkCall : Policy σ
  randomLegal : BitVec 64 → Policy σ
  episodeBytes : TrainingEpisodeV1 → Option Nat

structure WorkerResult where
  completedHands : Nat
  failedHands : Nat
  acceptedActions : Nat
  serializedTrajectoryBytes : Nat
  firstError : Option HandFailure
  deriving DecidableEq, Repr

structure BenchmarkCase where
  policy : BenchmarkPolicy
  recording : BenchmarkRecording
  workers : Nat
  requestedHands : Nat
  result : WorkerResult
  deriving DecidableEq, Repr

/-! ## A hand -/

section hand
variable {σ : Type} (draws : BenchmarkDraws σ) (baseSeed : BitVec 64)

def policiesForHand (policy : BenchmarkPolicy) (handIndex : Nat) : List (SeatId × Policy σ) :=
  match policy with
  | .checkCall => [(0, draws.checkCall), (1, draws.checkCall)]
  | .randomLegal =>
    let handSeed := baseSeed + (BitVec.ofNat 64 handIndex).rotateLeft 17 + 0x9E3779B97F4A7C15
    [(0, draws.randomLegal handSeed), (1, draws.randomLegal (handSeed ^^^ 0xD1B54A32D192ED03))]

def BenchmarkRecording.arena : BenchmarkRecording → ArenaRecordingMode
  | .minimal => .minimal
  | .fullJson => .full

def benchmarkArena (startingStack handIndex : Nat) (recording : ArenaRecordingMode) : ArenaConfig :=
  { ArenaConfig.headsUp startingStack with
    recording := recording
    handId := ⟨(handIndex + 1) % 2 ^ 64⟩ }

def runHand (startingStack : Nat) (policy : BenchmarkPolicy) (recording : BenchmarkRecording) (handIndex : Nat) :
    HandOutcome :=
  match TrainingArena.new (benchmarkArena startingStack handIndex recording.arena)
      (draws.deal (baseSeed + BitVec.ofNat 64 handIndex)) with
  | .error error => .error (.arena error)
  | .ok arena =>
    match recording with
    | .minimal =>
      match arena.runToTerminalSummary (policiesForHand draws baseSeed policy handIndex) with
      | none => .error .unfinished
      | some (.error error) => .error (.arena error)
      | some (.ok summary) => .ok (summary.acceptedActions, 0)
    | .fullJson =>
      match arena.runToTerminal (policiesForHand draws baseSeed policy handIndex) with
      | none => .error .unfinished
      | some (.error error) => .error (.arena error)
      | some (.ok episode) =>
        match draws.episodeBytes episode with
        | none => .error .json
        | some bytes => .ok (episode.decisions.length, bytes)

end hand

/-! ## The workers -/

namespace WorkerResult

def empty : WorkerResult := ⟨0, 0, 0, 0, none⟩

/-- What a worker counts of a hand. -/
def add (result : WorkerResult) : HandOutcome → WorkerResult
  | .ok (decisions, bytes) => { result with
      completedHands := result.completedHands + 1
      acceptedActions := result.acceptedActions + decisions
      serializedTrajectoryBytes := result.serializedTrajectoryBytes + bytes }
  | .error error => { result with
      failedHands := result.failedHands + 1
      firstError := result.firstError.or (some error) }

/-- What a case counts of a worker. -/
def join (aggregate result : WorkerResult) : WorkerResult where
  completedHands := aggregate.completedHands + result.completedHands
  failedHands := aggregate.failedHands + result.failedHands
  acceptedActions := aggregate.acceptedActions + result.acceptedActions
  serializedTrajectoryBytes := aggregate.serializedTrajectoryBytes + result.serializedTrajectoryBytes
  firstError := aggregate.firstError.or result.firstError

end WorkerResult

section workers
variable (play : Nat → HandOutcome) (workers hands : Nat)

/-- The loop of `run_worker`; it takes no more turns than there are hands. -/
def workerLoop : Nat → Nat → WorkerResult → WorkerResult
  | 0, _, result => result
  | fuel + 1, handIndex, result =>
    if handIndex < hands then workerLoop fuel (handIndex + workers) (result.add (play handIndex)) else result

def runWorker (workerIndex : Nat) : WorkerResult := workerLoop play workers hands hands workerIndex .empty

/-- The results of the workers, in the order in which they are joined. -/
def joinWorkers : WorkerResult := ((List.range workers).map (runWorker play workers hands)).foldl .join .empty

end workers

section benchmark
variable {σ : Type} (draws : BenchmarkDraws σ) (config : BenchmarkConfig)

def runBenchmarkCase (policy : BenchmarkPolicy) (recording : BenchmarkRecording) (workers : Nat) : BenchmarkCase where
  policy := policy
  recording := recording
  workers := workers
  requestedHands := config.handsPerCase
  result := joinWorkers (runHand draws config.baseSeed config.startingStack policy recording) workers config.handsPerCase

def checkWorkerCounts : List Nat → List Nat → Except BenchmarkError Unit
  | [], _ => .ok ()
  | workers :: rest, seen =>
    if workers = 0 ∨ maxBenchmarkWorkers < workers then .error (.invalidWorkerCount workers)
    else if workers ∈ seen then .error (.duplicateWorkerCount workers)
    else checkWorkerCounts rest (workers :: seen)

def BenchmarkConfig.validate : Except BenchmarkError Unit :=
  if config.handsPerCase = 0 ∨ maxBenchmarkHandsPerCase < config.handsPerCase then .error (.invalidHandCount config.handsPerCase)
  else if config.startingStack = 0 then .error .invalidStartingStack
  else if config.policies.isEmpty then .error .missingPolicies
  else if config.recordings.isEmpty then .error .missingRecordingModes
  else
    match checkWorkerCounts config.workerCounts [] with
    | .error error => .error error
    | .ok () => if config.workerCounts.isEmpty then .error (.invalidWorkerCount 0) else .ok ()

def runBenchmark : Except BenchmarkError (List BenchmarkCase) :=
  match config.validate with
  | .error error => .error error
  | .ok () => .ok (config.policies.flatMap fun policy => config.recordings.flatMap fun recording =>
      config.workerCounts.map (runBenchmarkCase draws config policy recording))

end benchmark

/-! ## Counting hands -/

namespace WorkerResult

def completes : HandOutcome → Bool
  | .ok _ => true
  | .error _ => false

def actionsOf : HandOutcome → Nat
  | .ok counted => counted.1
  | .error _ => 0

def bytesOf : HandOutcome → Nat
  | .ok counted => counted.2
  | .error _ => 0

/-- What is counted of some hands, one after another. -/
def tally (outcomes : List (HandOutcome)) : WorkerResult := outcomes.foldl add empty

theorem join_add (a b : WorkerResult) (outcome : HandOutcome) : (a.join b).add outcome = a.join (b.add outcome) := by
  cases outcome with
  | ok counted => simp [add, join, Nat.add_assoc]
  | error error => simp [add, join, Nat.add_assoc]

theorem join_foldl (a b : WorkerResult) (outcomes : List (HandOutcome)) :
    outcomes.foldl add (a.join b) = a.join (outcomes.foldl add b) := by
  induction outcomes generalizing b with
  | nil => rfl
  | cons outcome rest ih => rw [List.foldl_cons, List.foldl_cons, join_add, ih]

@[simp] theorem join_empty (a : WorkerResult) : a.join empty = a := by
  simp [join, empty]

@[simp] theorem empty_join (a : WorkerResult) : empty.join a = a := by
  simp [join, empty]

theorem tally_append (a b : List (HandOutcome)) : tally (a ++ b) = (tally a).join (tally b) := by
  rw [tally, List.foldl_append, ← join_empty (a.foldl add empty), join_foldl]
  rfl

/-- The totals of a list of hands, in whatever order they were played. -/
structure Totals (outcomes : List (HandOutcome)) (result : WorkerResult) : Prop where
  completed : result.completedHands = outcomes.countP completes
  failed : result.failedHands = outcomes.countP fun outcome => !completes outcome
  actions : result.acceptedActions = (outcomes.map actionsOf).sum
  bytes : result.serializedTrajectoryBytes = (outcomes.map bytesOf).sum
  error : ∀ error ∈ result.firstError, .error error ∈ outcomes
  clean : result.firstError = none → result.failedHands = 0

theorem totals_tally (outcomes : List (HandOutcome)) : Totals outcomes (tally outcomes) := by
  induction outcomes using List.reverseRecOn with
  | nil => exact ⟨rfl, rfl, rfl, rfl, fun _ he => (by cases he), fun _ => rfl⟩
  | append_singleton outcomes outcome ih =>
    have hsnoc : tally (outcomes ++ [outcome]) = (tally outcomes).add outcome := by rw [tally, List.foldl_append]; rfl
    rw [hsnoc]
    cases outcome with
    | ok counted =>
      refine ⟨?_, ?_, ?_, ?_, fun error he => List.mem_append_left _ (ih.error error he), ih.clean⟩
      · simp [add, ih.completed, List.countP_append, completes]
      · simp [add, ih.failed, List.countP_append, completes]
      · simp [add, ih.actions, actionsOf]
      · simp [add, ih.bytes, bytesOf]
    | error error =>
      refine ⟨?_, ?_, ?_, ?_, fun found he => ?_, fun hnone => ?_⟩
      · simp [add, ih.completed, List.countP_append, completes]
      · simp [add, ih.failed, List.countP_append, completes]
      · simp [add, ih.actions, actionsOf]
      · simp [add, ih.bytes, bytesOf]
      · change found ∈ (tally outcomes).firstError.or (some error) at he
        cases hfirst : (tally outcomes).firstError with
        | none =>
          rw [hfirst, Option.none_or, Option.mem_def, Option.some.injEq] at he
          subst he
          exact List.mem_append_right _ (List.mem_singleton_self _)
        | some first =>
          rw [hfirst, Option.some_or] at he
          exact List.mem_append_left _ (ih.error found (hfirst.trans he))
      · change (tally outcomes).firstError.or (some error) = none at hnone
        cases hfirst : (tally outcomes).firstError <;> rw [hfirst] at hnone <;> cases hnone

theorem Totals.perm {outcomes outcomes' : List (HandOutcome)} {result : WorkerResult}
    (h : Totals outcomes result) (hperm : outcomes.Perm outcomes') : Totals outcomes' result where
  completed := h.completed.trans (hperm.countP_eq _)
  failed := h.failed.trans (hperm.countP_eq _)
  actions := h.actions.trans (hperm.map _).sum_eq
  bytes := h.bytes.trans (hperm.map _).sum_eq
  error error he := hperm.mem_iff.mp (h.error error he)
  clean := h.clean

end WorkerResult

/-! ## The hands of the workers -/

section visits
variable (workers hands : Nat)

/-- The indexes that the loop of a worker visits. -/
def visits : Nat → Nat → List Nat
  | 0, _ => []
  | fuel + 1, handIndex => if handIndex < hands then handIndex :: visits fuel (handIndex + workers) else []

variable {workers hands}

theorem workerLoop_eq (play : Nat → HandOutcome) (fuel handIndex : Nat) (result : WorkerResult) :
    workerLoop play workers hands fuel handIndex result =
      ((visits workers hands fuel handIndex).map play).foldl .add result := by
  induction fuel generalizing handIndex result with
  | zero => rfl
  | succ fuel ih =>
    rw [workerLoop, visits]
    split
    · rw [ih, List.map_cons, List.foldl_cons]
    · rfl

theorem le_of_mem_visits {fuel handIndex n : Nat} (h : n ∈ visits workers hands fuel handIndex) : handIndex ≤ n := by
  induction fuel generalizing handIndex with
  | zero => cases h
  | succ fuel ih =>
    rw [visits] at h
    split at h
    · rcases List.mem_cons.mp h with rfl | h
      · exact Nat.le_refl _
      · exact Nat.le_trans (Nat.le_add_right _ _) (ih h)
    · cases h

theorem nodup_visits (hworkers : 0 < workers) (fuel handIndex : Nat) : (visits workers hands fuel handIndex).Nodup := by
  induction fuel generalizing handIndex with
  | zero => exact List.nodup_nil
  | succ fuel ih =>
    rw [visits]
    split
    · refine List.nodup_cons.mpr ⟨fun hmem => ?_, ih _⟩
      have hle := le_of_mem_visits hmem
      omega
    · exact List.nodup_nil

/-- With enough turns the loop visits all the hands of its residue. -/
theorem mem_visits (hworkers : 0 < workers) {fuel handIndex n : Nat} (hfuel : hands ≤ handIndex + fuel) :
    n ∈ visits workers hands fuel handIndex ↔ handIndex ≤ n ∧ n < hands ∧ n % workers = handIndex % workers := by
  induction fuel generalizing handIndex with
  | zero =>
    rw [visits]
    constructor
    · intro h
      cases h
    · rintro ⟨hle, hlt, -⟩
      omega
  | succ fuel ih =>
    rw [visits]
    split
    · rename_i hlt
      rw [List.mem_cons, ih (by omega), Nat.add_mod_right]
      constructor
      · rintro (rfl | ⟨hle, hrest⟩)
        · exact ⟨Nat.le_refl _, hlt, rfl⟩
        · exact ⟨by omega, hrest⟩
      · rintro ⟨hle, hn, hmod⟩
        by_cases heq : n = handIndex
        · exact Or.inl heq
        · -- the next of the residue is one stride on
          refine Or.inr ⟨?_, hn, hmod⟩
          have hstride : handIndex ≡ n [MOD workers] := hmod.symm
          have hdvd : workers ∣ n - handIndex := (Nat.modEq_iff_dvd' hle).mp hstride
          have hpos : 0 < n - handIndex := by omega
          have hge := Nat.le_of_dvd hpos hdvd
          omega
    · rename_i hge
      constructor
      · intro h
        cases h
      · rintro ⟨hle, hlt, -⟩
        omega

/-- The workers share the hands out: each is played once. -/
theorem visits_perm (hworkers : 0 < workers) :
    ((List.range workers).flatMap fun worker => visits workers hands hands worker).Perm (List.range hands) := by
  have hmem : ∀ worker < workers, ∀ n, n ∈ visits workers hands hands worker ↔ n < hands ∧ n % workers = worker := by
    intro worker hworker n
    rw [mem_visits hworkers (Nat.le_add_left _ _), Nat.mod_eq_of_lt hworker]
    constructor
    · rintro ⟨-, hrest⟩
      exact hrest
    · rintro ⟨hlt, hmod⟩
      exact ⟨hmod ▸ Nat.mod_le n workers, hlt, hmod⟩
  refine (List.perm_ext_iff_of_nodup (List.nodup_flatMap.mpr ⟨fun worker _ => nodup_visits hworkers _ _, ?_⟩)
    List.nodup_range).mpr fun n => ?_
  · refine List.nodup_range.imp_of_mem fun {worker other} hworker hother hne n hn hn' => hne ?_
    rw [List.mem_range] at hworker hother
    exact ((hmem worker hworker n).mp hn).2.symm.trans ((hmem other hother n).mp hn').2
  · rw [List.mem_flatMap, List.mem_range]
    constructor
    · rintro ⟨worker, hworker, hn⟩
      exact ((hmem worker (List.mem_range.mp hworker) n).mp hn).1
    · intro hn
      have hworker := Nat.mod_lt n hworkers
      exact ⟨n % workers, List.mem_range.mpr hworker, (hmem _ hworker n).mpr ⟨hn, rfl⟩⟩

theorem joinWorkers_eq (play : Nat → HandOutcome) (workers hands : Nat) : joinWorkers play workers hands =
    .tally (((List.range workers).flatMap fun worker => visits workers hands hands worker).map play) := by
  have hfold : ∀ (indexes : List Nat) (a : WorkerResult), (indexes.map (runWorker play workers hands)).foldl .join a =
      a.join (.tally ((indexes.flatMap fun worker => visits workers hands hands worker).map play)) := by
    intro indexes
    induction indexes with
    | nil => exact fun a => (WorkerResult.join_empty a).symm
    | cons worker rest ih =>
      intro a
      rw [List.map_cons, List.foldl_cons, ih, List.flatMap_cons, List.map_append, WorkerResult.tally_append, runWorker,
        workerLoop_eq]
      simp [WorkerResult.join, WorkerResult.tally, Nat.add_assoc, Option.or_assoc]
  rw [joinWorkers, hfold, WorkerResult.empty_join]

theorem joinWorkers_totals (hworkers : 0 < workers) (play : Nat → HandOutcome) :
    WorkerResult.Totals ((List.range hands).map play) (joinWorkers play workers hands) := by
  rw [joinWorkers_eq]
  exact (WorkerResult.totals_tally _).perm ((visits_perm hworkers).map play)

end visits

/-! ## Recording -/

namespace TrainingArena

variable {σ : Type} {arena : TrainingArena}

/-- The arena that keeps no record. -/
def unrecorded (arena : TrainingArena) : TrainingArena := { arena with recording := .minimal, decisions := [] }

theorem unrecorded_act (arena : TrainingArena) (observation : PolicyObservationV1) (policyAction : PolicyActionV1) :
    arena.unrecorded.act observation policyAction =
      ((arena.act observation policyAction).1, (arena.act observation policyAction).2.unrecorded) := by
  unfold act
  cases mapPolicyAction observation policyAction with
  | error error => rfl
  | ok action =>
    dsimp only
    cases hreceipt : arena.authority.submitWithAcknowledgement (CommandEnvelope.actForHand
      ("train-" ++ toString (observation.revision + 1)) observation.tableId observation.handId observation.revision
      observation.actingSeat action) with
    | mk receipt authority =>
      rw [show arena.unrecorded.authority = arena.authority from rfl, hreceipt]
      dsimp only
      cases receipt.outcome with
      | rejected error => rfl
      | accepted event => rfl

theorem unrecorded_step (arena : TrainingArena) (policyAction : PolicyActionV1) :
    arena.unrecorded.step policyAction = ((arena.step policyAction).1, (arena.step policyAction).2.unrecorded) := by
  unfold step
  rw [show arena.unrecorded.currentObservation = arena.currentObservation from rfl,
    show arena.unrecorded.maxActions = arena.maxActions from rfl,
    show arena.unrecorded.acceptedEvents = arena.acceptedEvents from rfl]
  split
  · rfl
  · cases arena.currentObservation with
    | error error => rfl
    | ok observed =>
      cases observed with
      | none => rfl
      | some observation => exact unrecorded_act arena observation policyAction

/-- A hand is played alike, whether it is recorded or not. -/
theorem unrecorded_playOut (fuel : Nat) (arena : TrainingArena) (policies : List (SeatId × Policy σ)) :
    playOut fuel arena.unrecorded policies =
      (playOut fuel arena policies).map fun played => (played.1, played.2.1.unrecorded, played.2.2) := by
  induction fuel generalizing arena policies with
  | zero => rfl
  | succ fuel ih =>
    rw [playOut, playOut, show arena.unrecorded.currentObservation = arena.currentObservation from rfl]
    cases arena.currentObservation with
    | error error => rfl
    | ok observed =>
      cases observed with
      | none => rfl
      | some observation =>
        dsimp only
        cases consult policies observation with
        | mk selected policies =>
          cases selected with
          | error error => rfl
          | ok policyAction =>
            dsimp only
            rw [unrecorded_step]
            cases arena.step policyAction with
            | mk decided arena =>
              cases decided with
              | error error => rfl
              | ok decision => exact ih arena policies

/-- A decision is kept of every action. -/
structure Recorded (arena : TrainingArena) : Prop where
  recording : arena.recording = .full
  decisions : arena.decisions.length = arena.acceptedEvents.length

theorem Recorded.step (hr : arena.Recorded) (policyAction : PolicyActionV1) : (arena.step policyAction).2.Recorded := by
  unfold TrainingArena.step
  split
  · exact hr
  · split
    · exact hr
    · exact hr
    · unfold act
      split
      · exact hr
      · dsimp only
        split
        · exact ⟨hr.recording, hr.decisions⟩
        · refine ⟨hr.recording, ?_⟩
          dsimp only
          rw [if_pos hr.recording, List.length_append, List.length_append, hr.decisions]
          rfl

theorem Recorded.playOut (hr : arena.Recorded) {fuel : Nat} {policies : List (SeatId × Policy σ)}
    {played : Except ArenaError Unit × TrainingArena × List (SeatId × Policy σ)}
    (h : playOut fuel arena policies = some played) : played.2.1.Recorded := by
  induction fuel generalizing arena policies with
  | zero => cases h
  | succ fuel ih =>
    rw [TrainingArena.playOut] at h
    split at h
    · cases h
      exact hr
    · cases h
      exact hr
    · split at h
      · cases h
        exact hr
      · rename_i policyAction _ _
        have hstep := hr.step policyAction
        split at h
        · rename_i hstepped
          cases h
          rw [hstepped] at hstep
          exact hstep
        · rename_i hstepped
          rw [hstepped] at hstep
          exact ih hstep h

/-- What an unrecorded run sums up of a run that was recorded. -/
theorem summary_of_episode (hr : arena.Recorded) {policies : List (SeatId × Policy σ)} {episode : TrainingEpisodeV1}
    (h : arena.runToTerminal policies = some (.ok episode)) :
    ∃ summary, arena.unrecorded.runToTerminalSummary policies = some (.ok summary) ∧
      summary.acceptedActions = episode.decisions.length := by
  unfold runToTerminal at h
  unfold runToTerminalSummary
  rw [show arena.unrecorded.fuel = arena.fuel from rfl, unrecorded_playOut]
  cases hplayed : TrainingArena.playOut arena.fuel arena policies with
  | none =>
    rw [hplayed] at h
    cases h
  | some played =>
    have hrecorded := hr.playOut hplayed
    obtain ⟨stop, ended, rest⟩ := played
    rw [hplayed] at h
    cases stop with
    | error error => cases Option.some.inj h
    | ok done =>
      have hepisode : ended.episode = .ok episode := Option.some.inj h
      unfold TrainingArena.episode at hepisode
      cases hterminal : ended.terminalSnapshot with
      | error error =>
        rw [hterminal] at hepisode
        cases hepisode
      | ok terminal =>
        rw [hterminal] at hepisode
        dsimp only at hepisode
        split at hepisode
        · cases hepisode
        · obtain rfl := Except.ok.inj hepisode
          have hsummary : ended.unrecorded.summary =
              .ok ⟨trainingRunSummaryVersion, ended.acceptedEvents.length, terminal.snapshot.phase,
                ended.chipDeltas terminal⟩ := by
            unfold summary
            rw [show ended.unrecorded.terminalSnapshot = ended.terminalSnapshot from rfl, hterminal]
            rfl
          exact ⟨_, congrArg some hsummary, hrecorded.decisions.symm⟩

theorem new_recorded {config : ArenaConfig} {deal : DealPlanV1} (h : new { config with recording := .full } deal = .ok arena) :
    arena.Recorded ∧ new { config with recording := .minimal } deal = .ok arena.unrecorded := by
  unfold new at h ⊢
  dsimp only at h ⊢
  split at h
  · cases h
  · rename_i hlimit
    rw [if_neg hlimit]
    split at h
    · cases h
    · split at h
      · cases h
      · obtain rfl := Except.ok.inj h
        exact ⟨⟨rfl, rfl⟩, rfl⟩

end TrainingArena

section benchmark
variable {σ : Type} {draws : BenchmarkDraws σ} {config : BenchmarkConfig}

/-- A hand that is recorded in full is played alike when it is not. -/
theorem runHand_minimal {baseSeed : BitVec 64} {startingStack handIndex decisions bytes : Nat} {policy : BenchmarkPolicy}
    (h : runHand draws baseSeed startingStack policy .fullJson handIndex = .ok (decisions, bytes)) :
    runHand draws baseSeed startingStack policy .minimal handIndex = .ok (decisions, 0) := by
  unfold runHand at h ⊢
  dsimp only at h ⊢
  split at h
  · cases h
  · rename_i arena hnew
    have hfull : TrainingArena.new { benchmarkArena startingStack handIndex .full with recording := .full }
        (draws.deal (baseSeed + BitVec.ofNat 64 handIndex)) = .ok arena := hnew
    obtain ⟨hrecorded, hminimal⟩ := TrainingArena.new_recorded hfull
    rw [show benchmarkArena startingStack handIndex BenchmarkRecording.minimal.arena =
      { benchmarkArena startingStack handIndex .full with recording := .minimal } from rfl, hminimal]
    dsimp only
    split at h
    · cases h
    · cases h
    · rename_i episode hepisode
      obtain ⟨summary, hsummary, hactions⟩ := TrainingArena.summary_of_episode hrecorded hepisode
      rw [hsummary]
      split at h
      · cases h
      · obtain ⟨rfl, -⟩ := Prod.mk.inj (Except.ok.inj h)
        rw [← hactions]

/-- The hands of a case. -/
def BenchmarkCase.hands (draws : BenchmarkDraws σ) (config : BenchmarkConfig) (measured : BenchmarkCase) :
    List (HandOutcome) :=
  (List.range config.handsPerCase).map (runHand draws config.baseSeed config.startingStack measured.policy measured.recording)

/-- What a report says of the hands that were to be played. -/
structure Partitioned (draws : BenchmarkDraws σ) (config : BenchmarkConfig) (report : List BenchmarkCase) : Prop where
  /-- A case for each policy, recording and number of workers, in this order. -/
  labels : report.map (fun measured => (measured.policy, measured.recording, measured.workers)) =
    config.policies.flatMap fun policy => config.recordings.flatMap fun recording =>
      config.workerCounts.map fun workers => (policy, recording, workers)
  /-- Every hand once, whatever the number of workers. -/
  totals : ∀ measured ∈ report, measured.result.Totals (measured.hands draws config)
  complete : ∀ measured ∈ report, measured.requestedHands = config.handsPerCase ∧
    measured.result.completedHands + measured.result.failedHands = config.handsPerCase
  /-- Recording changes nothing of what is counted, if no recorded hand fails. -/
  recording : ∀ full ∈ report, ∀ minimal ∈ report, full.policy = minimal.policy → full.recording = .fullJson →
    minimal.recording = .minimal → full.result.failedHands = 0 → minimal.result.failedHands = 0 ∧
      minimal.result.acceptedActions = full.result.acceptedActions

theorem checkWorkerCounts_pos {counts seen : List Nat} (h : checkWorkerCounts counts seen = .ok ()) :
    ∀ workers ∈ counts, 0 < workers := by
  induction counts generalizing seen with
  | nil => exact fun _ hmem => (by cases hmem)
  | cons count rest ih =>
    rw [checkWorkerCounts] at h
    split at h
    · cases h
    · rename_i hbounds
      split at h
      · cases h
      · intro workers hmem
        rcases List.mem_cons.mp hmem with rfl | hmem
        · omega
        · exact ih h workers hmem

theorem runBenchmark_ok {report : List BenchmarkCase} (h : runBenchmark draws config = .ok report) :
    (∀ workers ∈ config.workerCounts, 0 < workers) ∧ report = config.policies.flatMap fun policy =>
      config.recordings.flatMap fun recording => config.workerCounts.map (runBenchmarkCase draws config policy recording) := by
  unfold runBenchmark at h
  split at h
  · cases h
  · rename_i hvalid
    refine ⟨?_, (Except.ok.inj h).symm⟩
    unfold BenchmarkConfig.validate at hvalid
    split at hvalid
    · cases hvalid
    · split at hvalid
      · cases hvalid
      · split at hvalid
        · cases hvalid
        · split at hvalid
          · cases hvalid
          · split at hvalid
            · cases hvalid
            · rename_i hcounts
              exact checkWorkerCounts_pos hcounts

/-- No recorded hand fails, so none does that is not recorded, and the actions are the same. -/
theorem recorded_totals {policy : BenchmarkPolicy} {indexes : List Nat} {full minimal : WorkerResult} {baseSeed : BitVec 64}
    {startingStack : Nat} (hfull : full.Totals (indexes.map (runHand draws baseSeed startingStack policy .fullJson)))
    (hminimal : minimal.Totals (indexes.map (runHand draws baseSeed startingStack policy .minimal)))
    (hnone : full.failedHands = 0) : minimal.failedHands = 0 ∧ minimal.acceptedActions = full.acceptedActions := by
  have hplayed : ∀ n ∈ indexes, ∃ decisions bytes,
      runHand draws baseSeed startingStack policy .fullJson n = .ok (decisions, bytes) := by
    intro n hn
    rw [hfull.failed, List.countP_eq_zero] at hnone
    have hgood := hnone _ (List.mem_map_of_mem hn)
    cases houtcome : runHand draws baseSeed startingStack policy .fullJson n with
    | error error =>
      rw [houtcome] at hgood
      exact absurd rfl hgood
    | ok counted => exact ⟨counted.1, counted.2, rfl⟩
  constructor
  · rw [hminimal.failed, List.countP_eq_zero]
    intro outcome hmem
    obtain ⟨n, hn, rfl⟩ := List.mem_map.mp hmem
    obtain ⟨decisions, bytes, hhand⟩ := hplayed n hn
    rw [runHand_minimal hhand]
    exact Bool.false_ne_true
  · rw [hminimal.actions, hfull.actions, List.map_map, List.map_map]
    congr 1
    apply List.map_congr_left
    intro n hn
    obtain ⟨decisions, bytes, hhand⟩ := hplayed n hn
    rw [Function.comp_apply, Function.comp_apply, runHand_minimal hhand, hhand]
    rfl

/-- A report's totals are those of its hands, each played once, however they were shared out. -/
theorem benchmark_partition {report : List BenchmarkCase} (h : runBenchmark draws config = .ok report) :
    Partitioned draws config report := by
  obtain ⟨hworkers, hreport⟩ := runBenchmark_ok h
  have hcase : ∀ measured ∈ report, ∃ workers, 0 < workers ∧
      measured = runBenchmarkCase draws config measured.policy measured.recording workers := by
    intro measured hmem
    rw [hreport] at hmem
    obtain ⟨policy, -, hmem⟩ := List.mem_flatMap.mp hmem
    obtain ⟨recording, -, hmem⟩ := List.mem_flatMap.mp hmem
    obtain ⟨workers, hcount, rfl⟩ := List.mem_map.mp hmem
    exact ⟨workers, hworkers workers hcount, rfl⟩
  have htotals : ∀ measured ∈ report, measured.result.Totals (measured.hands draws config) := by
    intro measured hmem
    obtain ⟨workers, hpos, heq⟩ := hcase measured hmem
    have hresult : measured.result = joinWorkers (runHand draws config.baseSeed config.startingStack measured.policy
        measured.recording) workers config.handsPerCase := congrArg BenchmarkCase.result heq
    rw [hresult]
    exact joinWorkers_totals hpos _
  refine ⟨?_, htotals, fun measured hmem => ⟨?_, ?_⟩, fun full hfull minimal hminimal hpolicy hrecorded hunrecorded hnone => ?_⟩
  · rw [hreport]
    simp only [List.map_flatMap, List.map_map]
    rfl
  · obtain ⟨workers, -, heq⟩ := hcase measured hmem
    exact congrArg BenchmarkCase.requestedHands heq
  · have htotal := htotals measured hmem
    have hlength : (measured.hands draws config).length = config.handsPerCase := by
      rw [BenchmarkCase.hands, List.length_map, List.length_range]
    rw [htotal.completed, htotal.failed, ← hlength, List.length_eq_countP_add_countP WorkerResult.completes]
    simp
  · have hrecordedTotals := htotals full hfull
    have hplainTotals := htotals minimal hminimal
    rw [BenchmarkCase.hands, hrecorded, hpolicy] at hrecordedTotals
    rw [BenchmarkCase.hands, hunrecorded] at hplainTotals
    exact recorded_totals hrecordedTotals hplainTotals hnone

end benchmark

/-- Three hands, by one worker and by two. -/
def threeHands : BenchmarkConfig where
  handsPerCase := 3
  workerCounts := [1, 2]
  policies := [.checkCall]
  recordings := [.minimal, .fullJson]
  startingStack := 100
  baseSeed := 73

/-- `CheckCallPolicy`. -/
def checkCallPolicy : Policy Unit where
  state := ()
  select _ observation :=
    (if observation.legalActions.canCheck then .ok .check
      else if 0 < observation.amountToCall then .ok .call
      else .error (.masked .check), ())

def checkingDraws : BenchmarkDraws Unit where
  deal _ := ⟨dealPlanVersion, Deck.new.cards⟩
  checkCall := checkCallPolicy
  randomLegal _ := checkCallPolicy
  episodeBytes episode := some episode.decisions.length

/-- All of them are checked and called down. -/
theorem benchmark_partition_three : ∃ report, runBenchmark checkingDraws threeHands = .ok report ∧
    report.map (fun measured => (measured.result.completedHands, measured.result.acceptedActions)) =
      [(3, 24), (3, 24), (3, 24), (3, 24)] ∧ Partitioned checkingDraws threeHands report := by
  have hplayed : (runBenchmark checkingDraws threeHands).toOption.map (fun report =>
      report.map fun measured => (measured.result.completedHands, measured.result.acceptedActions)) =
        some [(3, 24), (3, 24), (3, 24), (3, 24)] := by decide +kernel
  cases hrun : runBenchmark checkingDraws threeHands with
  | error error => rw [hrun] at hplayed; cases hplayed
  | ok report =>
    rw [hrun] at hplayed
    exact ⟨report, rfl, Option.some.inj hplayed, benchmark_partition hrun⟩

end OpenFelt
