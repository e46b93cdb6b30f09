/-
  OpenFelt.Trainer.Results — what the interface keeps of the results played.

  Proved (`progress_exact`): in a run that puts no session away after a completed hand,
  whatever is saved when, the progress has grown by exactly the hands completed and the
  profit settled over all the sessions of the run, nothing is taken from less, and what
  the disk has room for reaches its file.

  The condition is needed: after a hand played before the first settings are saved, the
  totals fall back by that hand (`replaced_session_loses`).
-/

import OpenFelt.Trainer.ProgressRuns
import OpenFelt.Trainer.HandsGoOn
import OpenFelt.Trainer.HistoryLines

namespace OpenFelt

namespace Trainer

open MultiwayHand

section exact
variable {Line : Type} [DecidableEq Line] {encode : CompletedHand → Line} {localFeedback : Decision → Feedback}
  {start ui : Ui Line} {ops : List UiOp} {disk : Disk} {sessions : List Session}

/-- What a save owes to the sessions of a run from `start`. -/
structure Exact (encode : CompletedHand → Line) (start ui : Ui Line) (sessions : List Session) (disk : Disk) : Prop where
  /-- Nothing is taken from less. -/
  accounted : ui.accountedHands ≤ ui.session.completedHands
  hands : (ui.saveProgress encode disk).progress.hands =
    start.progress.hands + UInt64.ofNat (sessions.map (·.completedHands)).sum
  profit : (ui.saveProgress encode disk).progress.profitChips =
    start.progress.profitChips + Int64.ofInt (sessions.map (·.sessionProfit)).sum
  /-- The progress file has the totals. -/
  progressFile : disk.progress = true → ∃ p, (ui.saveProgress encode disk).store.progress = some p ∧
    SameTotals (ui.saveProgress encode disk).progress p
  cashFile : ui.session.cashEvents.length ≤ ui.cashSaved + disk.cashEvents →
    (ui.saveProgress encode disk).store.cashEvents = start.store.cashEvents ++ sessions.flatMap (·.cashEvents)
  handsFile : ui.session.replayReady.length ≤ disk.completedHands → ∃ lines,
    (ui.saveProgress encode disk).store.completedHands = start.store.completedHands ++ lines ∧
      ∀ session ∈ sessions, ∀ hand ∈ session.replayReady, encode hand ∈ lines

/-- Sessions that completed no hand have nothing to show. -/
theorem untouched_sessions {old : List Session} (horder : ∀ session ∈ old, InOrder session)
    (hzero : ∀ session ∈ old, session.completedHands = 0) :
    (old.map (·.completedHands)).sum = 0 ∧ (old.map (·.sessionProfit)).sum = 0 ∧ old.flatMap (·.cashEvents) = [] ∧
      ∀ session ∈ old, session.replayReady = [] := by
  have huntouched := fun session hin => (horder session hin).filed.untouched (hzero session hin)
  refine ⟨?_, ?_, ?_, fun session hin => ?_⟩
  · exact List.sum_eq_zero (by simpa using hzero)
  · exact List.sum_eq_zero (by simpa using fun session hin => (huntouched session hin).1)
  · simpa using fun session hin => (huntouched session hin).2
  · have hsequences := (horder session hin).filed.sequences
    rw [hzero session hin] at hsequences
    simpa using hsequences

theorem Keeps.exact (hinj : Function.Injective encode) (h : Keeps encode start ui) {old : List Session}
    (horder : ∀ session ∈ old, InOrder session) (hzero : ∀ session ∈ old, session.completedHands = 0) (disk : Disk) :
    Exact encode start ui (old ++ [ui.session]) disk := by
  obtain ⟨hin, hbooking, written, versions, hfiling⟩ := h
  obtain ⟨hhands, hprofit, hcash, hready⟩ := untouched_sessions horder hzero
  have hsave : Booking start (ui.saveProgress encode disk) := hbooking.save hin disk
  obtain ⟨more, versions', hsaved, hcomplete⟩ := hfiling.saved hinj hin disk
  refine ⟨hbooking.accounted, ?_, ?_, fun hdisk => ?_, fun hroom => ?_, fun hroom => ?_⟩
  · rw [List.map_append, List.sum_append, hhands, List.map_singleton, List.sum_singleton, Nat.zero_add]
    exact hsave.hands
  · rw [List.map_append, List.sum_append, hprofit, List.map_singleton, List.sum_singleton, Int.zero_add]
    exact hsave.profit
  · have hwritten : (ui.saveProgress encode disk).savedProgress = some (ui.saveProgress encode disk).progress := by
      show (if some ui.accounted ≠ ui.savedProgress ∧ disk.progress = true then some ui.accounted else ui.savedProgress) =
        some ui.accounted
      split
      · rfl
      · rename_i hnot
        have hsame : some ui.accounted = ui.savedProgress := by
          by_contra hne
          exact hnot ⟨hne, hdisk⟩
        exact hsame.symm
    exact hsave.saved _ hwritten
  · have hall : (ui.saveProgress encode disk).cashSaved = ui.session.cashEvents.length := by
      have hcursor := hbooking.cursor
      show ui.cashSaved + (ui.unsavedCash disk).length = _
      rw [Ui.unsavedCash, List.length_take, List.length_drop]
      omega
    have hfile := hsave.cash
    rw [hall] at hfile
    rw [List.flatMap_append, hcash, hfile]
    show _ ++ ui.session.cashEvents.take ui.session.cashEvents.length = _
    simp
  · refine ⟨(written ++ more).map encode, hsaved.file, fun session hsession hand hhand => ?_⟩
    rcases List.mem_append.mp hsession with hold | hnow
    · rw [hready session hold] at hhand
      cases hhand
    · rw [List.mem_singleton.mp hnow, ← hcomplete hroom, ← hsaved.held] at hhand
      exact List.mem_map_of_mem (Upserts.mem_of_mem_read hhand)

/-- Practice progress neither loses nor invents results as long as every session put away
    for the first settings has completed no hand. -/
theorem progress_exact (hinj : Function.Injective encode) {settings : Settings} {deck : Shuffle} {random : BitVec 128}
    {firstRun : Bool} {store : Store Line} (hstart : Ui.start settings deck random firstRun store = .ok start) (ops : List UiOp)
    (hearly : ∀ session ∈ start.replaced encode localFeedback ops, session.completedHands = 0) (disk : Disk) :
    Exact encode start (start.run encode localFeedback ops)
      (start.replaced encode localFeedback ops ++ [(start.run encode localFeedback ops).session]) disk := by
  have hkeeps : Keeps encode start start := start_keeps hstart
  exact (hkeeps.run hinj hearly).exact hinj (replaced_inOrder hkeeps.order) hearly disk

end exact

/-! ## The first settings -/

open HistoryLines (historyLine historyLine_injective)

/-- Files nobody has written to. -/
def noFiles : Store (List Char) := ⟨none, [], []⟩

def roomy : Disk := ⟨true, 10, 10⟩

/-- The hero folds a hand and tops up; settings are saved before the hand or after it. -/
def foldedHand : List UiOp := [.submit .fold, .resume, .save roomy, .topUp]

def firstSettings : UiOp := .saveSettings headsUp newDeck 1

theorem headsUp_starts : ∃ start, Ui.start headsUp newDeck 0 true noFiles = .ok start := by
  have hopens : (Ui.start headsUp newDeck 0 true noFiles).isOk = true := by decide +kernel
  cases hstart : Ui.start headsUp newDeck 0 true noFiles with
  | ok start => exact ⟨start, rfl⟩
  | error e =>
    rw [hstart] at hopens
    cases hopens

/-- The settings first, then the hand. -/
theorem progress_exact_first : ∃ start, Ui.start headsUp newDeck 0 true noFiles = .ok start ∧
    (start.replaced historyLine uncertain (firstSettings :: foldedHand)).length = 1 ∧
    (start.run historyLine uncertain (firstSettings :: foldedHand)).session.cashEvents.length = 1 ∧
    Exact historyLine start (start.run historyLine uncertain (firstSettings :: foldedHand))
      (start.replaced historyLine uncertain (firstSettings :: foldedHand) ++
        [(start.run historyLine uncertain (firstSettings :: foldedHand)).session]) roomy := by
  have hrun : (Ui.start headsUp newDeck 0 true noFiles).toOption.map (fun start =>
      ((start.replaced historyLine uncertain (firstSettings :: foldedHand)).map (·.completedHands),
        (start.run historyLine uncertain (firstSettings :: foldedHand)).session.cashEvents.length)) = some ([0], 1) := by
    decide +kernel
  obtain ⟨start, hstart⟩ := headsUp_starts
  rw [hstart] at hrun
  simp only [Except.toOption, Option.map_some, Option.some.injEq, Prod.mk.injEq] at hrun
  obtain ⟨hzero, hcash⟩ := hrun
  have hearly : ∀ session ∈ start.replaced historyLine uncertain (firstSettings :: foldedHand), session.completedHands = 0 := by
    intro session hin
    have hmem : session.completedHands ∈
        (start.replaced historyLine uncertain (firstSettings :: foldedHand)).map (·.completedHands) :=
      List.mem_map_of_mem hin
    rw [hzero, List.mem_singleton] at hmem
    exact hmem
  refine ⟨start, hstart, ?_, hcash, progress_exact historyLine_injective hstart _ hearly roomy⟩
  simpa using congrArg List.length hzero

/-- The hand first, then the settings: the next save takes the hand back, and the top-up reaches no file. -/
theorem replaced_session_loses : ∃ start, Ui.start headsUp newDeck 0 true noFiles = .ok start ∧
    (start.run historyLine uncertain foldedHand).progress.hands = 1 ∧
    (start.run historyLine uncertain (foldedHand ++ [firstSettings, .save roomy])).progress.hands = 0 ∧
    (start.run historyLine uncertain (foldedHand ++ [firstSettings, .save roomy])).store.cashEvents = [] ∧
    ¬ Exact historyLine start (start.run historyLine uncertain (foldedHand ++ [firstSettings]))
      (start.replaced historyLine uncertain (foldedHand ++ [firstSettings]) ++
        [(start.run historyLine uncertain (foldedHand ++ [firstSettings])).session]) roomy := by
  have hrun : (Ui.start headsUp newDeck 0 true noFiles).toOption.map (fun start =>
      ((start.run historyLine uncertain foldedHand).progress.hands,
        (start.run historyLine uncertain (foldedHand ++ [firstSettings, .save roomy])).progress.hands,
        (start.run historyLine uncertain (foldedHand ++ [firstSettings, .save roomy])).store.cashEvents,
        (start.run historyLine uncertain (foldedHand ++ [firstSettings])).accountedHands,
        (start.run historyLine uncertain (foldedHand ++ [firstSettings])).session.completedHands)) =
          some (1, 0, [], 1, 0) := by decide +kernel
  obtain ⟨start, hstart⟩ := headsUp_starts
  rw [hstart] at hrun
  simp only [Except.toOption, Option.map_some, Option.some.injEq, Prod.mk.injEq] at hrun
  obtain ⟨hbefore, hafter, hcash, haccounted, hcompleted⟩ := hrun
  refine ⟨start, hstart, hbefore, hafter, hcash, fun hexact => ?_⟩
  have hle := hexact.accounted
  rw [haccounted, hcompleted] at hle
  exact absurd hle (by decide)

end Trainer

end OpenFelt
