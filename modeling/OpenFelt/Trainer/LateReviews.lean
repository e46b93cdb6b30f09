/-
  OpenFelt.Trainer.LateReviews — reviews that come late, and what is read back of them
  (`src/trainer/replay.rs`).

  Proved (`late_reviews_converge`), over every session, every order of its calls and every
  interleaving with the saves:
  - a review changes at most the one record of its decision, never evidence of the solver
    for other evidence, and no decision, action or outcome; a decision's feedback is what
    its own reviews make of it in their order, whatever comes between them,
  - unless the bookmarks cannot be read, the file loads and the archive has each hand of
    it once, in the order first seen, in the version last written, and a save that has
    room leaves every hand of the session in the version it has now, in the order
    completed.
-/

import OpenFelt.Trainer.ProgressRuns
import OpenFelt.Trainer.HandsGoOn
import OpenFelt.Trainer.HistoryLines

namespace OpenFelt

namespace Trainer

open MultiwayHand

/-! ## The archive -/

/-- What comes of reading a file. -/
inductive FileRead (α : Type) where
  | read (content : α)
  | notFound
  | failed

structure Bookmark where
  handId : String
  decision : Nat
  deriving DecidableEq, Repr

structure Archive where
  hands : List CompletedHand
  bookmarks : List Bookmark
  skippedRecords : Nat
  deriving DecidableEq, Repr

def CompletedHand.valid (hand : CompletedHand) : Bool :=
  hand.version = replayVersion && !hand.sessionId.isEmpty && !hand.handId.isEmpty &&
    hand.decisions.all fun d => d.decision.observation.handId = hand.sequence

namespace Archive

def empty : Archive := ⟨[], [], 0⟩

section load
variable {Line : Type} (decode : Line → Option CompletedHand) (blank : Line → Bool)

/-- A line of the history: its hand over the one of the same session and name, or behind the others. -/
def readLine (archive : Archive) (line : Line) : Archive :=
  match decode line with
  | some hand =>
    if hand.valid then { archive with hands := Upserts.upsert CompletedHand.key hand archive.hands }
    else { archive with skippedRecords := archive.skippedRecords + 1 }
  | none => { archive with skippedRecords := archive.skippedRecords + 1 }

/-- The bookmarks are `none` when their file is no set of bookmarks. -/
def load (hands : FileRead (List Line)) (bookmarks : FileRead (Option (List Bookmark))) : Except String Archive :=
  let history : Except String Archive :=
    match hands with
    | .read lines => .ok ((lines.filter fun line => !blank line).foldl (readLine decode) empty)
    | .notFound => .ok empty
    | .failed => .error "Cannot read completed-hand history"
  match history with
  | .error error => .error error
  | .ok archive =>
    match bookmarks with
    | .read (some bookmarks) => .ok { archive with bookmarks := bookmarks }
    | .read none => .ok { archive with skippedRecords := archive.skippedRecords + 1 }
    | .notFound => .ok archive
    | .failed => .error "Cannot read bookmarks"

/-- The hand a line is of. -/
def handOf (line : Line) : Option CompletedHand :=
  match decode line with
  | some hand => if hand.valid then some hand else none
  | none => none

def handsOf (lines : List Line) : List CompletedHand := (lines.filter fun line => !blank line).filterMap (handOf decode)

end load

section reads
variable {Line : Type} {decode : Line → Option CompletedHand} {blank : Line → Bool} {encode : CompletedHand → Line}
  {lines : List Line} {bookmarks : FileRead (Option (List Bookmark))}

theorem readLines_hands (lines : List Line) (decode : Line → Option CompletedHand) (archive : Archive) :
    (lines.foldl (readLine decode) archive).hands =
    Upserts.write CompletedHand.key archive.hands (lines.filterMap (handOf decode)) := by
  induction lines generalizing archive with
  | nil => rfl
  | cons line lines ih =>
    rw [List.foldl_cons, ih]
    unfold readLine
    cases hline : decode line with
    | none =>
      have hnone : handOf decode line = none := by rw [handOf, hline]
      rw [List.filterMap_cons_none hnone]
    | some hand =>
      dsimp only
      by_cases hvalid : hand.valid = true
      · have hsome : handOf decode line = some hand := by simp only [handOf, hline, if_pos hvalid]
        rw [if_pos hvalid, List.filterMap_cons_some hsome, Upserts.write_cons]
      · have hnone : handOf decode line = none := by simp only [handOf, hline, if_neg hvalid]
        rw [if_neg hvalid, List.filterMap_cons_none hnone]

/-- A file of hands is loaded unless that of the bookmarks cannot be read, with the hands of its lines read by key. -/
theorem load_ok (h : bookmarks ≠ .failed) : ∃ archive, load decode blank (.read lines) bookmarks = .ok archive ∧
    archive.hands = Upserts.read CompletedHand.key (handsOf decode blank lines) := by
  have hhands := readLines_hands (lines.filter fun line => !blank line) decode empty
  cases bookmarks with
  | read content =>
    cases content with
    | some bookmarks => exact ⟨_, rfl, hhands⟩
    | none => exact ⟨_, rfl, hhands⟩
  | notFound => exact ⟨_, rfl, hhands⟩
  | failed => exact absurd rfl h

theorem handsOf_append (lines more : List Line) :
    handsOf decode blank (lines ++ more) = handsOf decode blank lines ++ handsOf decode blank more := by
  rw [handsOf, List.filter_append, List.filterMap_append]
  rfl

/-- Lines written of valid hands give the hands back. -/
theorem handsOf_encoded {hands : List CompletedHand} (hdecode : ∀ hand, decode (encode hand) = some hand)
    (hblank : ∀ hand, blank (encode hand) = false) (hvalid : ∀ hand ∈ hands, hand.valid = true) :
    handsOf decode blank (hands.map encode) = hands := by
  induction hands with
  | nil => rfl
  | cons hand hands ih =>
    have hrest := ih fun h hh => hvalid h (List.mem_cons_of_mem _ hh)
    have hsome : handOf decode (encode hand) = some hand := by
      simp only [handOf, hdecode, if_pos (hvalid hand List.mem_cons_self)]
    unfold handsOf at hrest ⊢
    rw [List.map_cons, List.filter_cons_of_pos (by simp [hblank]), List.filterMap_cons_some hsome, hrest]

end reads

end Archive

/-! ## What is written is read -/

section written
variable {Line : Type} [DecidableEq Line] {encode : CompletedHand → Line} {localFeedback : Decision → Feedback} {ui : Ui Line}
  {ops : List UiOp} {hand : CompletedHand} {id : String} {random : BitVec 128}

theorem sessionId_ne (random : BitVec 128) : (sessionId random).isEmpty = false := by
  have hlength : (sessionId random).length = 32 := by simp [sessionId]
  rw [String.isEmpty_eq_false_iff]
  intro he
  rw [he] at hlength
  cases hlength

/-- A hand filed under a session's name is one the archive takes. -/
theorem valid_of_filed (h : hand.Filed (sessionId random)) : hand.valid = true := by
  obtain ⟨bound, hin⟩ := h.decisions
  have hname : hand.handId.isEmpty = false := by
    rw [h.named, String.isEmpty_eq_false_iff]
    intro he
    have hlength := congrArg String.length he
    have hid : (sessionId random).length = 32 := by simp [sessionId]
    simp only [String.length_append, hid] at hlength
    simp at hlength
  have hdecisions : ∀ d ∈ hand.decisions, d.decision.observation.handId = hand.sequence :=
    fun d hd => hin.hand d.decision (List.mem_map_of_mem hd)
  have hsession : hand.sessionId.isEmpty = false := by rw [h.session, sessionId_ne]
  simp only [CompletedHand.valid, h.version, hsession, hname]
  simpa using hdecisions

/-- A session that was started with a name of its own. -/
def Named (s : Session) : Prop := ∃ random, s.sessionId = sessionId random

theorem Step.named {op : UiOp} {ui' : Ui Line} (hstep : Step encode op ui ui') (h : Named ui.session) : Named ui'.session := by
  cases hstep with
  | tends _ ht =>
    obtain ⟨random, hid⟩ := h
    exact ⟨random, ht.sessionId.trans hid⟩
  | saved _ _ => exact h
  | noted _ _ => exact h
  | replaced _ hnew => exact ⟨_, new_sessionId hnew⟩

/-- Only a save appends to the history of hands. -/
theorem Step.writes {op : UiOp} (h : InOrder ui.session) : (op.apply encode localFeedback ui).store.completedHands =
    ui.store.completedHands ++ (op.writes encode ui).map encode := by
  have hstep := (op.step encode localFeedback h).2
  cases op with
  | save disk => rfl
  | _ =>
    simp only [UiOp.writes, List.map_nil, List.append_nil]
    generalize UiOp.apply encode localFeedback _ ui = ui' at hstep
    cases hstep with
    | tends _ ht => exact ht.handsFile
    | saved _ hop => cases hop
    | noted _ _ => rfl
    | replaced _ _ => rfl

theorem run_writes (h : InOrder ui.session) (ops : List UiOp) : (ui.run encode localFeedback ops).store.completedHands =
    ui.store.completedHands ++ (ui.writes encode localFeedback ops).map encode := by
  induction ops generalizing ui with
  | nil => simp [Ui.run, Ui.writes]
  | cons op ops ih =>
    have hrest := ih (op.step encode localFeedback h).1
    rw [Ui.writes, List.map_append, ← List.append_assoc, ← Step.writes h]
    exact hrest

/-- Every hand written is a hand of a session of its own name. -/
theorem writes_valid (h : InOrder ui.session) (hnamed : Named ui.session) (ops : List UiOp) :
    ∀ hand ∈ ui.writes encode localFeedback ops, hand.valid = true := by
  induction ops generalizing ui with
  | nil => simp [Ui.writes]
  | cons op ops ih =>
    obtain ⟨horder, hstep⟩ := op.step encode localFeedback h
    intro hand hin
    rcases List.mem_append.mp hin with hin | hin
    · cases op with
      | save disk =>
        obtain ⟨random, hid⟩ := hnamed
        have hready := h.filed.ready hand (unsavedHands_within disk hand hin)
        rw [hid] at hready
        exact valid_of_filed hready
      | _ => cases hin
    · exact ih horder (hstep.named hnamed) hand hin

end written

/-! ## Late reviews -/

/-- What a review may do to a session: nothing, or its feedback on the one record of its decision. -/
structure ReviewsOne (s : Session) (feedback : Feedback) : Prop where
  refused : (s.recordReviewFeedback feedback).1 = false → (s.recordReviewFeedback feedback).2 = s
  written : (s.recordReviewFeedback feedback).1 = true → ∃ before record after, s.records = before ++ record :: after ∧
    (s.recordReviewFeedback feedback).2.records = before ++ { record with feedback := feedback } :: after ∧
    record.key = feedback.key ∧ (∀ other ∈ before ++ after, other.key ≠ feedback.key) ∧
    (record.feedback.solver = true → feedback.solver = true)
  /-- The decisions, the actions and the outcomes stay, and everything that is no record. -/
  frame : ∃ decisions ready,
    (s.recordReviewFeedback feedback).2 = { s with replayDecisions := decisions, replayReady := ready } ∧
    decisions.map (·.decision) = s.replayDecisions.map (·.decision) ∧
    ready.map (·.unreviewed) = s.replayReady.map (·.unreviewed)

theorem Filed.reviewsOne {s : Session} (h : Filed s) (feedback : Feedback) : ReviewsOne s feedback := by
  refine ⟨recordReviewFeedback_unwritten, fun hwritten => ?_, recordReviewFeedback_frame s feedback⟩
  obtain ⟨hanswer, hrecords⟩ := recordReviewFeedback_records s feedback
  rw [hanswer] at hwritten
  rw [hrecords]
  have hspec := amend_spec feedback s.records
  generalize amend feedback s.records = result at hspec hwritten
  cases hspec with
  | unknown _ => cases hwritten
  | kept _ _ _ _ _ _ => cases hwritten
  | @written before after record he hbefore hkey hsolver =>
    refine ⟨before, record, after, he, rfl, hkey, fun other hother => ?_, hsolver⟩
    rcases List.mem_append.mp hother with hin | hin
    · exact hbefore other hin
    · have hnodup := h.nodup
      rw [he, List.map_append, List.map_cons] at hnodup
      have hfresh := (List.nodup_cons.mp (List.nodup_append.mp hnodup).2.1).1
      intro hsame
      rw [hkey, ← hsame] at hfresh
      exact hfresh (List.mem_map_of_mem hin)

/-- The hands an archive has of a log: each once, in the order first seen, in the version last logged. -/
structure ArchiveOf (log hands : List CompletedHand) : Prop where
  once : (hands.map (·.key)).Nodup
  firstSeen : hands.map (·.key) = (log.map (·.key)).eraseDups
  last : ∀ hand ∈ hands, Upserts.last CompletedHand.key log hand.key = some hand

section claim
variable {Line : Type} [DecidableEq Line] {encode : CompletedHand → Line}
  {decode : Line → Option CompletedHand} {blank : Line → Bool}
  {localFeedback : Decision → Feedback} {start ui : Ui Line} {random : BitVec 128} {settings : Settings} {deck : Shuffle}
  {firstRun : Bool}
  {store : Store Line} {ops : List UiOp} {bookmarks : FileRead (Option (List Bookmark))}

theorem archiveOf_read (log : List CompletedHand) : ArchiveOf log (Upserts.read CompletedHand.key log) :=
  ⟨Upserts.nodup_read, Upserts.keys_read, fun _ => Upserts.mem_read.mp⟩

/-- The file holds what it started with and what the saves wrote. -/
theorem handsOf_run (hdecode : ∀ hand, decode (encode hand) = some hand) (hblank : ∀ hand, blank (encode hand) = false)
    (hstart : Ui.start settings deck random firstRun store = .ok start) (ops : List UiOp) :
    Archive.handsOf decode blank (start.run encode localFeedback ops).store.completedHands =
      Archive.handsOf decode blank store.completedHands ++ start.writes encode localFeedback ops := by
  obtain ⟨hnew, hstore, _⟩ := start_session hstart
  have horder := new_inOrder hnew
  rw [run_writes horder, hstore, Archive.handsOf_append,
    Archive.handsOf_encoded hdecode hblank (writes_valid horder ⟨random, new_sessionId hnew⟩ ops)]

/-- With room for every hand the archive has each hand of the session as it is now, and, where the file knew none of
    the session's, these hands in their order behind the ones it had. -/
theorem Keeps.archived (hdecode : ∀ hand, decode (encode hand) = some hand) (hblank : ∀ hand, blank (encode hand) = false)
    (h : Keeps encode start ui) (hnamed : Named ui.session) (disk : Disk)
    (hroom : ui.session.replayReady.length ≤ disk.completedHands)
    (hbookmarks : bookmarks ≠ .failed) :
    ∃ archive, Archive.load decode blank (.read (ui.saveProgress encode disk).store.completedHands) bookmarks = .ok archive ∧
      (∀ hand ∈ ui.session.replayReady, hand ∈ archive.hands) ∧
      ((∀ hand ∈ Archive.handsOf decode blank start.store.completedHands, hand.sessionId ≠ ui.session.sessionId) →
        archive.hands = Upserts.read CompletedHand.key (Archive.handsOf decode blank start.store.completedHands) ++
          ui.session.replayReady) := by
  have hinj : Function.Injective encode := by
    intro hand hand' he
    have hsame := congrArg decode he
    rw [hdecode, hdecode] at hsame
    exact Option.some.inj hsame
  obtain ⟨horder, _, written, versions, hfiling⟩ := h
  obtain ⟨more, versions', hsaved, hcomplete⟩ := hfiling.saved hinj horder disk
  obtain ⟨random, hid⟩ := hnamed
  have hvalid : ∀ hand ∈ written ++ more, hand.valid = true := by
    intro hand hin
    have hfiled := hsaved.valid hand hin
    rw [show (ui.saveProgress encode disk).session = ui.session from rfl, hid] at hfiled
    exact valid_of_filed hfiled
  have hread : Upserts.read CompletedHand.key (written ++ more) = ui.session.replayReady := hsaved.held.trans (hcomplete hroom)
  obtain ⟨archive, hload, hhands⟩ := @Archive.load_ok Line decode blank
    (ui.saveProgress encode disk).store.completedHands bookmarks hbookmarks
  refine ⟨archive, hload, ?_⟩
  rw [hhands, hsaved.file, Archive.handsOf_append, Archive.handsOf_encoded hdecode hblank hvalid]
  refine ⟨fun hand hin => ?_, fun hfresh => ?_⟩
  · rw [← hread, Upserts.mem_read] at hin
    rw [Upserts.mem_read, Upserts.last_append, hin]
    rfl
  · rw [Upserts.read_append, hread]
    intro hand hin hand' hin' he
    have hown : hand.sessionId = ui.session.sessionId := (hsaved.valid hand hin).session
    exact hfresh hand' hin' ((congrArg Prod.fst he).symm.trans hown)

theorem named_run (h : InOrder ui.session) (hnamed : Named ui.session) (ops : List UiOp) :
    Named (ui.run encode localFeedback ops).session := by
  induction ops generalizing ui with
  | nil => exact hnamed
  | cons op ops ih =>
    obtain ⟨horder, hstep⟩ := op.step encode localFeedback h
    exact ih horder (hstep.named hnamed)

/-- Late reviews converge, in the session and in what is read back of it. -/
theorem late_reviews_converge (hdecode : ∀ hand, decode (encode hand) = some hand)
    (hblank : ∀ hand, blank (encode hand) = false) :
    (∀ settings deck id session, Session.new settings deck id = .ok session → ∀ calls,
      (∀ feedback, ReviewsOne (session.run localFeedback calls) feedback) ∧
      ∀ later key held, (session.run localFeedback calls).evidence key = some held →
        (∀ call ∈ later, ∀ feedback, call ≠ .solverFeedback feedback) →
        ∃ now, (session.run localFeedback (calls ++ later)).evidence key = some now ∧
          now = (reviewsOf key later).foldl Feedback.absorb held ∧ (held.solver = true → now.solver = true)) ∧
    ∀ settings deck random firstRun store start, Ui.start settings deck random firstRun store = .ok start → ∀ ops bookmarks,
      bookmarks ≠ .failed →
      (∃ archive, Archive.load decode blank (.read (start.run encode localFeedback ops).store.completedHands) bookmarks =
          .ok archive ∧
        ArchiveOf (Archive.handsOf decode blank store.completedHands ++ start.writes encode localFeedback ops) archive.hands) ∧
      ((∀ session ∈ start.replaced encode localFeedback ops, session.completedHands = 0) → ∀ disk,
        (start.run encode localFeedback ops).session.replayReady.length ≤ disk.completedHands →
        ∃ archive, Archive.load decode blank
            (.read ((start.run encode localFeedback ops).saveProgress encode disk).store.completedHands) bookmarks = .ok archive ∧
          (∀ hand ∈ (start.run encode localFeedback ops).session.replayReady, hand ∈ archive.hands) ∧
          ((∀ hand ∈ Archive.handsOf decode blank store.completedHands,
              hand.sessionId ≠ (start.run encode localFeedback ops).session.sessionId) →
            archive.hands = Upserts.read CompletedHand.key (Archive.handsOf decode blank store.completedHands) ++
              (start.run encode localFeedback ops).session.replayReady)) := by
  constructor
  · intro settings deck id session hnew calls
    obtain ⟨hrests, hfiled⟩ := new_inOrder hnew
    have hreached : Filed (session.run localFeedback calls) := hfiled.run hrests
    have hrests' : Rests (fun _ => True) (session.run localFeedback calls) := hrests.run fun _ _ _ _ _ _ _ => trivial
    refine ⟨fun feedback => hreached.reviewsOne feedback, fun later key held hheld hreviews => ⟨_, ?_, rfl, absorbed_solver _⟩⟩
    rw [Session.run_append]
    exact hreached.converges hrests' hreviews hheld
  · intro settings deck random firstRun store start hstart ops bookmarks hbookmarks
    obtain ⟨hnew, hstore, _⟩ := start_session hstart
    have horder := new_inOrder hnew
    refine ⟨?_, fun hearly disk hroom => ?_⟩
    · obtain ⟨archive, hload, hhands⟩ := @Archive.load_ok Line decode blank
        (start.run encode localFeedback ops).store.completedHands bookmarks hbookmarks
      rw [handsOf_run hdecode hblank hstart] at hhands
      exact ⟨archive, hload, hhands ▸ archiveOf_read _⟩
    · have hinj : Function.Injective encode := by
        intro hand hand' he
        have hsame := congrArg decode he
        rw [hdecode, hdecode] at hsame
        exact Option.some.inj hsame
      have hkeeps : Keeps encode start (start.run encode localFeedback ops) := (start_keeps hstart).run hinj hearly
      have hnamed : Named (start.run encode localFeedback ops).session := named_run horder ⟨random, new_sessionId hnew⟩ ops
      rw [← hstore]
      exact hkeeps.archived hdecode hblank hnamed disk hroom hbookmarks

end claim

/-! ## A review after the hand -/

open HistoryLines (historyLine handOfLine blankLine handOfLine_historyLine blankLine_historyLine)

/-- A review of the first decision of the first hand. -/
def solverReview : Feedback := ⟨1, 1, 0, "reasonable", "", "", [], "solver", none⟩

/-- The hero folds and the hand is saved; the review comes in two copies, and one of another hand. -/
def lateReview : List UiOp :=
  [.submit .fold, .resume, .save ⟨true, 10, 10⟩, .providerResult solverReview, .providerResult { solverReview with handId := 2 },
    .providerResult solverReview]

/-- What is read back after the next save is the hand with the review. -/
theorem late_reviews_converge_folded : ∃ start : Ui (List Char), Ui.start headsUp newDeck 0 false ⟨none, [], []⟩ = .ok start ∧
    ∃ archive, Archive.load handOfLine blankLine
        (.read ((start.run historyLine uncertain lateReview).saveProgress historyLine ⟨true, 10, 10⟩).store.completedHands)
        .notFound = .ok archive ∧
      archive.hands.map (fun hand => hand.decisions.map (·.feedback)) = [[solverReview]] := by
  have hrun : (Ui.start headsUp newDeck 0 false ⟨none, [], []⟩).toOption.map (fun start =>
      ((start.run historyLine uncertain lateReview).session.replayReady.map (fun hand => hand.decisions.map (·.feedback)),
        (start.replaced historyLine uncertain lateReview).length)) = some ([[solverReview]], 0) := by decide +kernel
  cases hstart : Ui.start headsUp newDeck 0 false (⟨none, [], []⟩ : Store (List Char)) with
  | error e =>
    rw [hstart] at hrun
    cases hrun
  | ok start =>
    rw [hstart] at hrun
    simp only [Except.toOption, Option.map_some, Option.some.injEq, Prod.mk.injEq] at hrun
    obtain ⟨hready, hreplaced⟩ := hrun
    have hconverge := (@late_reviews_converge (List Char) _ historyLine handOfLine blankLine uncertain handOfLine_historyLine
      blankLine_historyLine).2 headsUp newDeck 0 false ⟨none, [], []⟩ start hstart lateReview .notFound (by simp)
    have hroom : (start.run historyLine uncertain lateReview).session.replayReady.length ≤ 10 := by
      have hlength := congrArg List.length hready
      rw [List.length_map] at hlength
      rw [hlength]
      decide
    have hnone : ∀ session ∈ start.replaced historyLine uncertain lateReview, session.completedHands = 0 := by
      rw [List.length_eq_zero_iff.mp hreplaced]
      simp
    obtain ⟨archive, hload, _, hhands⟩ := hconverge.2 hnone ⟨true, 10, 10⟩ hroom
    refine ⟨start, rfl, archive, hload, ?_⟩
    rw [hhands fun hand hin => absurd hin List.not_mem_nil]
    exact hready

end Trainer

end OpenFelt
