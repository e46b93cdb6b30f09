/-
  OpenFelt.Trainer.Progress — the part of the trainer's interface that keeps results
  (`src/trainer/tui.rs`, the records and files of `src/trainer/storage.rs`).

  The interface drives one session and brings its totals, its cash movements and its
  completed hands to the files. Four cursors say how far that has come; they are of the
  session, and the first saving of the settings replaces the session without them.
  A line of the history file is whatever `encode` writes of a hand; an append either
  writes its line or leaves the file. What arrives of coaching, the draws and the decks
  are arguments of the calls. The totals are a `u64` and an `i64`, which wrap as in a
  release build.
-/

import OpenFelt.Trainer.Records
import OpenFelt.Lib.OrdMap
import Mathlib.Data.String.Basic

namespace OpenFelt.Trainer

/-! ## The records -/

structure DrillProgress where
  attempts : Nat
  correct : Nat
  completedSets : Nat
  deriving DecidableEq, Repr

structure ReviewPattern where
  seen : Nat
  reconsider : Nat
  deriving DecidableEq, Repr

structure Progress where
  hands : UInt64
  decisions : Nat
  profitChips : Int64
  concepts : OrdMap String Nat
  drills : OrdMap String DrillProgress
  reviewPatterns : OrdMap String ReviewPattern
  deriving DecidableEq

def Progress.empty : Progress := ⟨0, 0, 0, .empty, .empty, .empty⟩

def Progress.noteReview (p : Progress) (concept assessment : String) : Progress :=
  if concept.isEmpty then p
  else
    let entry := (p.reviewPatterns.find? concept).getD ⟨0, 0⟩
    let entry := { entry with seen := entry.seen + 1 }
    let entry := if assessment = "reconsider" then { entry with reconsider := entry.reconsider + 1 } else entry
    { p with reviewPatterns := p.reviewPatterns.insert concept entry }

/-- The progress with a decision of the hero in it. -/
def Progress.noteDecision (p : Progress) (feedback : Feedback) : Progress :=
  let p := { p with decisions := p.decisions + 1 }.noteReview feedback.concept feedback.assessment
  { p with concepts := p.concepts.insert feedback.concept ((p.concepts.find? feedback.concept).getD 0 + 1) }

/-- The files written: the last progress saved, and what has been appended of cash movements and hands. -/
structure Store (Line : Type) where
  progress : Option Progress
  cashEvents : List CashEvent
  completedHands : List Line

/-- What the disk takes of one save: the progress or not, and how many lines of each history before one fails. -/
structure Disk where
  progress : Bool
  cashEvents : Nat
  completedHands : Nat

structure Ui (Line : Type) where
  session : Session
  progress : Progress
  accountedHands : Nat
  accountedProfit : Int
  cashSaved : Nat
  replaySnapshots : List Line
  reviewChanged : Bool
  savedProgress : Option Progress
  firstRun : Bool
  store : Store Line

/-- Thirty-two hexadecimal digits. -/
def sessionId (random : BitVec 128) : String :=
  String.ofList ((List.range 32).map fun i => Nat.digitChar (random.toNat / 16 ^ (31 - i) % 16))

/-! ## Saving -/

section save
variable {Line : Type} [DecidableEq Line] (encode : CompletedHand → Line)

/-- Appends every hand whose line is not its snapshot, until one fails: the snapshots and the hands written. -/
def saveHands : Nat → List CompletedHand → List Line → List Line × List CompletedHand
  | _, [], snapshots => (snapshots, [])
  | room, hand :: hands, snapshots =>
    if snapshots.head? = some (encode hand) then
      let (rest, written) := saveHands room hands snapshots.tail
      (encode hand :: rest, written)
    else
      match room with
      | 0 => (snapshots, [])
      | room + 1 =>
        let (rest, written) := saveHands room hands snapshots.tail
        (encode hand :: rest, hand :: written)

namespace Ui

variable (ui : Ui Line)

/-- The totals brought up to the session's. -/
def accounted : Progress :=
  { ui.progress with
    hands := ui.progress.hands + (UInt64.ofNat ui.session.completedHands - UInt64.ofNat ui.accountedHands)
    profitChips := ui.progress.profitChips + (Int64.ofInt ui.session.sessionProfit - Int64.ofInt ui.accountedProfit) }

/-- The hands a save writes. -/
def unsavedHands (disk : Disk) : List Line × List CompletedHand :=
  if ui.reviewChanged || ui.replaySnapshots.length ≠ ui.session.replayReady.length then
    saveHands encode disk.completedHands ui.session.replayReady ui.replaySnapshots
  else (ui.replaySnapshots, [])

/-- The cash movements a save writes. -/
def unsavedCash (disk : Disk) : List CashEvent := (ui.session.cashEvents.drop ui.cashSaved).take disk.cashEvents

def saveProgress (disk : Disk) : Ui Line :=
  let progress := ui.accounted
  let writes := some progress ≠ ui.savedProgress ∧ disk.progress = true
  { ui with
    progress := progress
    accountedHands := ui.session.completedHands
    accountedProfit := ui.session.sessionProfit
    savedProgress := if writes then some progress else ui.savedProgress
    cashSaved := ui.cashSaved + (ui.unsavedCash disk).length
    replaySnapshots := (ui.unsavedHands encode disk).1
    store :=
      { progress := if writes then some progress else ui.store.progress
        cashEvents := ui.store.cashEvents ++ ui.unsavedCash disk
        completedHands := ui.store.completedHands ++ (ui.unsavedHands encode disk).2.map encode } }

def replayPersisted : Bool := ui.replaySnapshots = ui.session.replayReady.map encode

/-- What the loop does after a save. -/
def noteSaved : Ui Line := if ui.reviewChanged && ui.replayPersisted encode then { ui with reviewChanged := false } else ui

end Ui

/-! ## Calls -/

namespace Ui

variable (ui : Ui Line) (localFeedback : Decision → Feedback)

/-- `run` up to its loop. -/
def start (settings : Settings) (deck : Shuffle) (random : BitVec 128) (firstRun : Bool) (store : Store Line) :
    Except SessionError (Ui Line) :=
  match Session.new settings deck (sessionId random) with
  | .error error => .error error
  | .ok session =>
    .ok {
      session := session
      progress := store.progress.getD .empty
      accountedHands := 0
      accountedProfit := 0
      cashSaved := 0
      replaySnapshots := []
      reviewChanged := false
      savedProgress := none
      firstRun := firstRun
      store := store }

/-- In the pace of play the hand goes on at once. -/
def submit (action : Action) : Ui Line :=
  match ui.session.submit localFeedback action with
  | (.error _, session) => { ui with session := session }
  | (.ok decision, session) =>
    { ui with
      session := if session.settings.practicePace = .play then session.continueHand else session
      progress := ui.progress.noteDecision (localFeedback decision) }

def resume : Ui Line := if ui.session.coaching.isSome then { ui with session := ui.session.continueHand } else ui

/-- A review of the provider that its own check let pass. -/
def acceptProviderResult (feedback : Feedback) : Ui Line :=
  { ui with
    session := (ui.session.recordReviewFeedback feedback).2
    reviewChanged := ui.reviewChanged || (ui.session.recordReviewFeedback feedback).1 }

def acceptSolverResult (handId revision : Nat) (feedback : Feedback) : Ui Line :=
  if !ui.session.settings.solverFeedback then ui
  else if feedback.handId ≠ handId ∨ feedback.revision ≠ revision ∨ feedback.evidenceBasis ≠ "solver" then ui
  else if (ui.session.recordReviewFeedback feedback).1 then
    { ui with session := (ui.session.recordReviewFeedback feedback).2, reviewChanged := true }
  else { ui with session := (ui.session.recordReviewFeedback feedback).2 }

/-- Validated settings applied; the first ones start a session over. -/
def applySavedSettings (settings : Settings) (deck : Shuffle) (random : BitVec 128) : Ui Line :=
  match settings.validate with
  | .error _ => ui
  | .ok () =>
    if ui.firstRun then
      match Session.new settings deck (sessionId random) with
      -- the source expects validated settings to give a session
      | .error _ => ui
      | .ok session => { ui with session := session, firstRun := false }
    else { ui with session := ui.session.saveSettings settings }

end Ui

inductive UiOp where
  | submit (action : Action)
  | resume
  | stepBot (draws : Draws)
  | nextHand (deck : Shuffle)
  | topUp
  | withdraw (amount : Nat)
  | providerResult (feedback : Feedback)
  | solverResult (handId revision : Nat) (feedback : Feedback)
  | saveSettings (settings : Settings) (deck : Shuffle) (random : BitVec 128)
  /-- A drill answered in the replay view goes to the file, -/
  | drilled (drills : OrdMap String DrillProgress)
  /-- and is read back when the view is left. -/
  | syncDrills
  | save (disk : Disk)
  | noteSaved

variable (localFeedback : Decision → Feedback)

def UiOp.apply (op : UiOp) (ui : Ui Line) : Ui Line :=
  match op with
  | submit action => ui.submit localFeedback action
  | resume => ui.resume
  | stepBot draws => { ui with session := (ui.session.stepBot draws).2 }
  | nextHand deck => { ui with session := (ui.session.nextHand deck).2 }
  | topUp => { ui with session := ui.session.topUp.2 }
  | withdraw amount => { ui with session := (ui.session.withdraw amount).2 }
  | providerResult feedback => ui.acceptProviderResult feedback
  | solverResult handId revision feedback => ui.acceptSolverResult handId revision feedback
  | saveSettings settings deck random => ui.applySavedSettings settings deck random
  | drilled drills =>
    { ui with store := { ui.store with progress := some { ui.store.progress.getD .empty with drills := drills } } }
  | syncDrills => { ui with progress := { ui.progress with drills := (ui.store.progress.getD .empty).drills } }
  | save disk => ui.saveProgress encode disk
  | noteSaved => ui.noteSaved encode

def Ui.run (ui : Ui Line) (ops : List UiOp) : Ui Line := ops.foldl (fun ui op => op.apply encode localFeedback ui) ui

/-- The session a call puts away for a new one. -/
def UiOp.replaced (op : UiOp) (ui : Ui Line) : List Session :=
  match op with
  | saveSettings settings deck random =>
    if ui.firstRun && !(ui.applySavedSettings settings deck random).firstRun then [ui.session] else []
  | _ => []

/-- The sessions a run puts away. -/
def Ui.replaced (ui : Ui Line) : List UiOp → List Session
  | [] => []
  | op :: ops => op.replaced ui ++ Ui.replaced (op.apply encode localFeedback ui) ops

/-- The hands a call appends to their history. -/
def UiOp.writes (op : UiOp) (ui : Ui Line) : List CompletedHand :=
  match op with
  | save disk => (ui.unsavedHands encode disk).2
  | _ => []

def Ui.writes (ui : Ui Line) : List UiOp → List CompletedHand
  | [] => []
  | op :: ops => op.writes encode ui ++ Ui.writes (op.apply encode localFeedback ui) ops

end save

end OpenFelt.Trainer
