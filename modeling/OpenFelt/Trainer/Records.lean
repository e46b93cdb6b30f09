/-
  OpenFelt.Trainer.Records — what a session keeps of its decisions, and what a review does
  to it.

  A decision is recorded with its hand's number and the length of the hand's history, so
  no two records of a session are of one decision (`Filed.nodup`). A review finds its
  decision by these two and touches nothing else (`recordReviewFeedback_records`): what a
  decision's feedback is in the end depends on the reviews of that decision alone, in
  their order, whatever else the session does meanwhile (`Filed.converges`).
-/

import OpenFelt.Trainer.SessionRuns
import OpenFelt.Game.Rounds

namespace OpenFelt

open Betting

namespace MultiwayHand

variable {h : MultiwayHand} {p : SeatId} {handId : HandId} {o : Trainer.Observation}

/-- An observation carries the hand's number and the length of its history. -/
theorem observation_key (ho : h.observation handId p = .ok o) : o.handId = handId.id ∧ o.revision = h.actionHistory.length := by
  unfold observation at ho
  split at ho
  · cases ho
  rename_i view hview
  have hid : view.handId = handId := by
    unfold projectHand at hview
    split at hview
    · cases hview
    · cases hview
      rfl
  split at ho
  · cases ho
  rename_i o' hobserved
  cases ho
  unfold Trainer.Observation.fromProjection at hobserved
  split at hobserved
  · cases hobserved
  split at hobserved
  · cases hobserved
  split at hobserved
  · cases hobserved
  split at hobserved
  · cases hobserved
  split at hobserved
  · cases hobserved
  · cases hobserved
    exact ⟨congrArg HandId.id hid, rfl⟩

end MultiwayHand

namespace Trainer

open MultiwayHand

/-! ## A review -/

/-- What a review goes by. -/
def ReplayDecision.key (record : ReplayDecision) : Nat × Nat :=
  (record.decision.observation.handId, record.decision.observation.revision)

def Feedback.key (feedback : Feedback) : Nat × Nat := (feedback.handId, feedback.revision)

/-- The feedback held, unless the other may replace it. -/
def Feedback.absorb (held feedback : Feedback) : Feedback := if held.solver && !feedback.solver then held else feedback

section amend
variable {feedback : Feedback} {record : ReplayDecision} {records rest : List ReplayDecision} {hands : List CompletedHand}

theorem matches_iff : record.matches feedback = true ↔ record.key = feedback.key := by
  simp [ReplayDecision.matches, ReplayDecision.key, Feedback.key]

theorem absorb_solver {held : Feedback} (h : held.solver = true) : (held.absorb feedback).solver = true := by
  unfold Feedback.absorb
  cases hf : feedback.solver <;> simp [h, hf]

/-- What a review makes of the records: the first of its decision, if there is one, is looked at. -/
inductive Amended (feedback : Feedback) (records : List ReplayDecision) : Bool × Bool × List ReplayDecision → Prop
  | unknown : (∀ record ∈ records, record.key ≠ feedback.key) → Amended feedback records (false, false, records)
  | kept (before : List ReplayDecision) {after : List ReplayDecision} {record : ReplayDecision} :
    records = before ++ record :: after →
      (∀ r ∈ before, r.key ≠ feedback.key) → record.key = feedback.key →
      record.feedback.solver = true → feedback.solver = false → Amended feedback records (true, false, records)
  | written (before : List ReplayDecision) {after : List ReplayDecision} {record : ReplayDecision} :
    records = before ++ record :: after →
      (∀ r ∈ before, r.key ≠ feedback.key) → record.key = feedback.key →
      (record.feedback.solver = true → feedback.solver = true) →
      Amended feedback records (true, true, before ++ { record with feedback := feedback } :: after)

theorem amend_spec (feedback : Feedback) (records : List ReplayDecision) : Amended feedback records (amend feedback records) := by
  induction records with
  | nil => exact .unknown (by simp)
  | cons record records ih =>
    rw [amend]
    by_cases hm : record.matches feedback = true
    · rw [if_pos hm]
      have hkey := matches_iff.mp hm
      by_cases hkeep : (record.feedback.solver && !feedback.solver) = true
      · rw [if_pos hkeep]
        simp only [Bool.and_eq_true, Bool.not_eq_true'] at hkeep
        exact .kept [] rfl (by simp) hkey hkeep.1 hkeep.2
      · rw [if_neg hkeep]
        refine .written [] rfl (by simp) hkey fun hs => ?_
        simpa [hs] using hkeep
    · rw [if_neg hm]
      have hne : record.key ≠ feedback.key := fun e => hm (matches_iff.mpr e)
      have hfront : ∀ before : List ReplayDecision, (∀ r ∈ before, r.key ≠ feedback.key) →
          ∀ r ∈ record :: before, r.key ≠ feedback.key := by
        intro before hbefore r hr
        rcases List.mem_cons.mp hr with rfl | hr
        · exact hne
        · exact hbefore r hr
      generalize amend feedback records = result at ih
      cases ih with
      | unknown hall => exact .unknown (hfront _ hall)
      | kept before he hbefore hkey hs hf =>
        exact .kept (record :: before) (by rw [he, List.cons_append]) (hfront _ hbefore) hkey hs hf
      | written before he hbefore hkey hs =>
        exact .written (record :: before) (by rw [he, List.cons_append]) (hfront _ hbefore) hkey hs

/-- The decisions stay. -/
theorem amend_decisions : (amend feedback records).2.2.map (·.decision) = records.map (·.decision) := by
  have h := amend_spec feedback records
  generalize amend feedback records = result at h
  cases h with
  | unknown _ => rfl
  | kept _ _ _ _ _ _ => rfl
  | written _ he _ _ _ => simp [he]

theorem amend_unwritten (h : (amend feedback records).2.1 = false) : (amend feedback records).2.2 = records := by
  have hspec := amend_spec feedback records
  generalize amend feedback records = result at hspec h
  cases hspec with
  | unknown _ => rfl
  | kept _ _ _ _ _ _ => rfl
  | written _ _ _ _ _ => cases h

/-- Records looked at one after the other. -/
theorem amend_append : amend feedback (records ++ rest) =
    if (amend feedback records).1 then
      ((amend feedback records).1, (amend feedback records).2.1, (amend feedback records).2.2 ++ rest)
    else ((amend feedback rest).1, (amend feedback rest).2.1, records ++ (amend feedback rest).2.2) := by
  induction records with
  | nil => simp [amend]
  | cons record records ih =>
    rw [List.cons_append, amend, amend]
    by_cases hm : record.matches feedback = true
    · simp only [if_pos hm]
      split <;> simp
    · simp only [if_neg hm, ih]
      split <;> simp

/-- What a hand is without its reviews. -/
def CompletedHand.unreviewed (hand : CompletedHand) : Nat × String × String × Nat × TableProjection × List Decision :=
  (hand.version, hand.sessionId, hand.handId, hand.sequence, hand.outcome, hand.decisions.map (·.decision))

theorem amendHands_unreviewed : (amendHands feedback hands).2.map (·.unreviewed) = hands.map (·.unreviewed) := by
  induction hands with
  | nil => rfl
  | cons hand hands ih =>
    rw [amendHands]
    dsimp only
    split
    · simp [CompletedHand.unreviewed, amend_decisions]
    · simp [ih]

/-- Over the hands as over their records in a row. -/
theorem amendHands_records : (amendHands feedback hands).1 = (amend feedback (hands.flatMap (·.decisions))).2.1 ∧
    (amendHands feedback hands).2.flatMap (·.decisions) = (amend feedback (hands.flatMap (·.decisions))).2.2 := by
  induction hands with
  | nil => exact ⟨rfl, rfl⟩
  | cons hand hands ih =>
    rw [amendHands, List.flatMap_cons, amend_append]
    dsimp only
    split
    · exact ⟨rfl, rfl⟩
    · exact ⟨ih.1, by rw [List.flatMap_cons, ih.2]⟩

theorem amendHands_unwritten (h : (amendHands feedback hands).1 = false) : (amendHands feedback hands).2 = hands := by
  induction hands with
  | nil => rfl
  | cons hand hands ih =>
    rw [amendHands] at h ⊢
    dsimp only at h ⊢
    split
    · rename_i hfound
      rw [if_pos hfound] at h
      rw [amend_unwritten h]
    · rename_i hnone
      rw [if_neg hnone] at h
      rw [ih h]

end amend

/-- All the records of a session: those of the hand in play and those of the hands completed. -/
def Session.records (s : Session) : List ReplayDecision := s.replayDecisions ++ s.replayReady.flatMap (·.decisions)

section reviews
variable {s : Session} {feedback : Feedback}

theorem recordReviewFeedback_records (s : Session) (feedback : Feedback) :
    (s.recordReviewFeedback feedback).1 = (amend feedback s.records).2.1 ∧
      (s.recordReviewFeedback feedback).2.records = (amend feedback s.records).2.2 := by
  rw [Session.records, Session.recordReviewFeedback, amend_append]
  dsimp only
  split
  · exact ⟨rfl, rfl⟩
  · obtain ⟨hwritten, hrecords⟩ := @amendHands_records feedback s.replayReady
    exact ⟨hwritten, by rw [Session.records, hrecords]⟩

/-- Nothing but the feedback of records is written. -/
theorem recordReviewFeedback_frame (s : Session) (feedback : Feedback) : ∃ decisions ready,
    (s.recordReviewFeedback feedback).2 = { s with replayDecisions := decisions, replayReady := ready } ∧
      decisions.map (·.decision) = s.replayDecisions.map (·.decision) ∧
      ready.map (·.unreviewed) = s.replayReady.map (·.unreviewed) := by
  unfold Session.recordReviewFeedback
  dsimp only
  split
  · exact ⟨_, _, rfl, amend_decisions, rfl⟩
  · exact ⟨_, _, rfl, rfl, amendHands_unreviewed⟩

theorem recordReviewFeedback_unwritten (h : (s.recordReviewFeedback feedback).1 = false) :
    (s.recordReviewFeedback feedback).2 = s := by
  unfold Session.recordReviewFeedback at h ⊢
  dsimp only at h ⊢
  split
  · rename_i hfound
    rw [if_pos hfound] at h
    rw [amend_unwritten h]
  · rename_i hnone
    rw [if_neg hnone] at h
    rw [amendHands_unwritten h]

/-- The same of solver feedback for the decision the session pauses on. -/
theorem recordSolverFeedback_frame (s : Session) (feedback : Feedback) : ∃ decisions,
    (s.recordSolverFeedback feedback).2 = { s with replayDecisions := decisions } ∧
      decisions.map (·.decision) = s.replayDecisions.map (·.decision) := by
  unfold Session.recordSolverFeedback
  split
  · exact ⟨_, rfl, rfl⟩
  split
  · exact ⟨_, rfl, rfl⟩
  split
  · exact ⟨_, rfl, rfl⟩
  rename_i record hlast
  split
  · exact ⟨_, rfl, rfl⟩
  · refine ⟨_, rfl, ?_⟩
    obtain ⟨front, hfront⟩ := List.getLast?_eq_some_iff.mp hlast
    rw [hfront]
    simp

end reviews

/-! ## What is filed -/

/-- Decisions of one hand, in the order of the revisions, all below `bound`. -/
structure InHand (handId bound : Nat) (decisions : List Decision) : Prop where
  hand : ∀ d ∈ decisions, d.observation.handId = handId
  rising : (decisions.map (·.observation.revision)).Pairwise (· < ·)
  below : ∀ d ∈ decisions, d.observation.revision < bound

/-- A completed hand carries the session's name and its own number on every decision. -/
structure CompletedHand.Filed (sessionId : String) (hand : CompletedHand) : Prop where
  version : hand.version = replayVersion
  session : hand.sessionId = sessionId
  named : hand.handId = sessionId ++ "-" ++ toString hand.sequence
  decisions : ∃ bound, InHand hand.sequence bound (hand.decisions.map (·.decision))

/-- Between calls: the hands completed are filed under their numbers, and the records of the hand in play are its own. -/
structure Filed (s : Session) : Prop where
  numbered : s.completedHands + (!s.settled).toNat = s.handId
  dealt : 0 < s.handId
  sequences : s.replayReady.map (·.sequence) = List.range' 1 s.completedHands
  ready : ∀ hand ∈ s.replayReady, hand.Filed s.sessionId
  current : InHand s.handId s.hand.actionHistory.length (s.replayDecisions.map (·.decision))
  emptied : s.settled = true → s.replayDecisions = []
  untouched : s.completedHands = 0 → s.sessionProfit = 0 ∧ s.cashEvents = []

section filed
variable {localFeedback : Decision → Feedback} {s s' : Session} {P : HandConfig → Prop} {hand hand' : CompletedHand}
  {handId bound bound' : Nat} {decisions : List Decision} {id : String} {command : SeatCommand}

theorem InHand.mono (h : InHand handId bound decisions) (hle : bound ≤ bound') : InHand handId bound' decisions :=
  ⟨h.hand, h.rising, fun d hd => Nat.lt_of_lt_of_le (h.below d hd) hle⟩

theorem InHand.nil (handId bound : Nat) : InHand handId bound [] := ⟨by simp, List.Pairwise.nil, by simp⟩

/-- A decision taken at the end of the history. -/
theorem InHand.snoc {decision : Decision} (h : InHand handId bound decisions) (hid : decision.observation.handId = handId)
    (hrevision : decision.observation.revision = bound) : InHand handId (bound + 1) (decisions ++ [decision]) := by
  refine ⟨fun d hd => ?_, ?_, fun d hd => ?_⟩
  · rcases List.mem_append.mp hd with hd | hd
    · exact h.hand d hd
    · rw [List.mem_singleton.mp hd]
      exact hid
  · rw [List.map_append, List.pairwise_append]
    refine ⟨h.rising, List.pairwise_singleton _ _, fun r hr r' hr' => ?_⟩
    obtain ⟨d, hd, rfl⟩ := List.mem_map.mp hr
    rw [List.map_singleton, List.mem_singleton] at hr'
    rw [hr', hrevision]
    exact h.below d hd
  · rcases List.mem_append.mp hd with hd | hd
    · have := h.below d hd
      omega
    · rw [List.mem_singleton.mp hd]
      omega

theorem CompletedHand.Filed.same (h : hand.Filed id) (he : hand'.unreviewed = hand.unreviewed) : hand'.Filed id := by
  simp only [CompletedHand.unreviewed, Prod.mk.injEq] at he
  obtain ⟨hversion, hsession, hid, hsequence, _, hdecisions⟩ := he
  refine ⟨hversion.trans h.version, hsession.trans h.session, ?_, ?_⟩
  · rw [hid, hsequence]
    exact h.named
  · rw [hdecisions, hsequence]
    exact h.decisions

theorem Stands.unsettled (hs : Stands P s) (hv : s.hand.validateCommand command = .ok ()) : s.settled = false := by
  cases hs with
  | between hb => exact absurd hv (Over.refused hb.handOver)
  | plays hp _ => exact hp.unsettled

/-- An accepted command adds one action to the hand's history. -/
theorem Stands.history (hs : Stands P s) (hv : s.hand.validateCommand command = .ok ()) :
    (s.hand.applyCommand command).2.actionHistory.length = s.hand.actionHistory.length + 1 := by
  cases hs with
  | between hb => exact absurd hv (Over.refused hb.handOver)
  | plays hp _ =>
    rcases hp.commanded with ⟨posted, hplay | hover⟩ | ⟨progress, hshowing⟩
    · obtain ⟨o, g, _, hacted, hu, _, _, hproceeds⟩ := hplay.1.command_cases hv
      have hkept := (hproceeds.follows hu).history
      rw [applyCommand, hv]
      show (s.hand.applyValidatedAction command.seat command.action).actionHistory.length = _
      rw [hkept, hacted.frame]
      simp
    · exact absurd hv (Over.refused hover)
    · have hrefused : ((HandOp.command command).apply s.hand).1 = false := hshowing.refuses (by simp)
      rw [HandOp.apply, applyCommand, hv] at hrefused
      cases hrefused

/-- Calls that leave the records and the accounts as they are; the history may have grown. -/
theorem Filed.same (h : Filed s) (hhistory : s.hand.actionHistory.length ≤ s'.hand.actionHistory.length)
    (hid : s'.handId = s.handId) (hsession : s'.sessionId = s.sessionId) (hsettled : s'.settled = s.settled)
    (hcount : s'.completedHands = s.completedHands)
    (hready : s'.replayReady.map (·.unreviewed) = s.replayReady.map (·.unreviewed))
    (hdecisions : s'.replayDecisions.map (·.decision) = s.replayDecisions.map (·.decision))
    (huntouched : s.completedHands = 0 → s'.sessionProfit = s.sessionProfit ∧ s'.cashEvents = s.cashEvents) : Filed s' := by
  refine ⟨?_, ?_, ?_, fun hand hhand => ?_, ?_, fun hs => ?_, fun hzero => ?_⟩
  · rw [hcount, hsettled, hid]
    exact h.numbered
  · rw [hid]
    exact h.dealt
  · have hseq := congrArg (List.map fun u : Nat × String × String × Nat × TableProjection × List Decision => u.2.2.2.1) hready
    simp only [List.map_map] at hseq
    rw [hcount, ← h.sequences]
    exact hseq
  · obtain ⟨hand', hin, he⟩ := List.mem_map.mp (hready ▸ List.mem_map_of_mem hhand)
    rw [hsession]
    exact (h.ready hand' hin).same he.symm
  · rw [hid, hdecisions]
    exact h.current.mono hhistory
  · have hnone := h.emptied (hsettled ▸ hs)
    rw [hnone] at hdecisions
    simpa using hdecisions
  · rw [hcount] at hzero
    obtain ⟨hprofit, hcash⟩ := huntouched hzero
    rw [hprofit, hcash]
    exact h.untouched hzero

/-- A hand counted is filed with its records. -/
theorem Filed.counted {outcome : TableProjection} (h : Filed s) (hu : s.settled = false) : Filed (s.counted outcome) := by
  have hnumbered := h.numbered
  rw [hu] at hnumbered
  refine ⟨hnumbered, h.dealt, ?_, fun hand hhand => ?_, InHand.nil _ _, fun _ => rfl, nofun⟩
  · have hid : s.handId = 1 + 1 * s.completedHands := by
      rw [← hnumbered, Nat.one_mul, Nat.add_comm]
      rfl
    show (s.replayReady ++ _).map (·.sequence) = List.range' 1 (s.completedHands + 1)
    rw [List.map_append, h.sequences, List.range'_concat, ← hid]
    rfl
  · rcases List.mem_append.mp hhand with hin | hin
    · exact h.ready hand hin
    · rw [List.mem_singleton.mp hin]
      exact ⟨rfl, rfl, rfl, _, h.current⟩

theorem Filed.settle (h : Filed s) : Filed s.settle := by
  rcases settle_cases s with ⟨he, _⟩ | ⟨outcome, _, hu, _, he⟩
  · rw [he]
    exact h
  · rw [he]
    exact h.counted hu

theorem Filed.continueHand (h : Filed s) : Filed s.continueHand := by
  have hunpaused : Filed s.unpaused := h.same (Nat.le_refl _) rfl rfl rfl rfl rfl rfl fun _ => ⟨rfl, rfl⟩
  exact hunpaused.settle

/-- Money moves between hands, so after a hand has been counted. -/
theorem Filed.played (h : Filed s) (hs : s.settled = true) : s.completedHands ≠ 0 := by
  have hnumbered := h.numbered
  have hdealt := h.dealt
  rw [hs] at hnumbered
  simp only [Bool.not_true, Bool.toNat_false, Nat.add_zero] at hnumbered
  omega

theorem Filed.submit {action : Action} (h : Filed s) (hr : Rests P s) : Filed (s.submit localFeedback action).2 := by
  rcases submit_cases localFeedback s action with ⟨_, he⟩ | ⟨o, _, ho, hv, he⟩
  · rw [he]
    exact h
  · have hunsettled := hr.stands.unsettled hv
    obtain ⟨hid, hrevision⟩ := observation_key ho
    have hhistory := hr.stands.history hv
    rw [he]
    refine ⟨h.numbered, h.dealt, h.sequences, h.ready, ?_, fun hs => ?_, h.untouched⟩
    · show InHand s.handId (s.hand.applyCommand ⟨hero, action⟩).2.actionHistory.length
          ((s.replayDecisions ++ ([_] : List ReplayDecision)).map (·.decision))
      rw [hhistory, List.map_append]
      exact h.current.snoc hid hrevision
    · rw [show s.settled = true from hs] at hunsettled
      cases hunsettled

theorem Filed.stepBot {draws : Draws} (h : Filed s) (hr : Rests P s) : Filed (s.stepBot draws).2 := by
  rcases stepBot_cases s draws with ⟨_, _, he⟩ | ⟨p, o, bot, _, _, _, _, _, hv, he⟩
  · rw [he]
    exact h
  · rw [he]
    have hhistory := hr.stands.history hv
    have hplayed : Filed (s.botPlayed ⟨p, bot.choose draws o⟩) := by
      refine h.same ?_ rfl rfl rfl rfl rfl rfl fun _ => ⟨rfl, rfl⟩
      show s.hand.actionHistory.length ≤ (s.hand.applyCommand _).2.actionHistory.length
      omega
    exact hplayed.settle

theorem Filed.moved {n : Nat} {events : List CashEvent} (h : Filed s) (hs : s.settled = true) : Filed (s.moved n events) :=
  h.same (Nat.le_refl _) rfl rfl rfl rfl rfl rfl fun hzero => absurd hzero (h.played hs)

theorem Filed.nextHand {deck : Shuffle} (h : Filed s) (hr : Rests P s) : Filed (s.nextHand deck).2 := by
  rcases nextHand_cases s deck with ⟨_, _, he⟩ | ⟨hready, hcases⟩
  · rw [he]
    exact h
  · have hf : s.finished = true := by
      simp only [Session.ready, Bool.and_eq_true] at hready
      exact hready.1
    have hs := hr.counted hf
    have hplayed := h.played hs
    rcases hcases with ⟨_, _, he⟩ | ⟨button, _, ⟨_, _, he⟩ | ⟨hand, _, he⟩⟩
    · rw [he]
      exact h
    · rw [he]
      exact h.same (Nat.le_refl _) rfl rfl rfl rfl rfl rfl fun hzero => absurd hzero hplayed
    · rw [he]
      have hnumbered := h.numbered
      rw [hs] at hnumbered
      refine ⟨?_, Nat.succ_pos _, h.sequences, h.ready, InHand.nil _ _, (fun he => by cases he),
        fun hzero => absurd hzero hplayed⟩
      show s.completedHands + 1 = s.handId + 1
      rw [← hnumbered]
      rfl

theorem Filed.saveSettings {settings : Settings} (h : Filed s) : Filed (s.saveSettings settings) := by
  have hkept : Filed { s with settings := settings } := h.same (Nat.le_refl _) rfl rfl rfl rfl rfl rfl fun _ => ⟨rfl, rfl⟩
  unfold Session.saveSettings
  dsimp only
  split
  · exact hkept.continueHand
  · exact hkept

theorem Filed.reviewed {feedback : Feedback} (h : Filed s) : Filed (s.recordReviewFeedback feedback).2 := by
  obtain ⟨decisions, ready, he, hdecisions, hready⟩ := recordReviewFeedback_frame s feedback
  rw [he]
  exact h.same (Nat.le_refl _) rfl rfl rfl rfl hready hdecisions fun _ => ⟨rfl, rfl⟩

theorem Filed.step {op : SessionOp} (h : Filed s) (hr : Rests P s) : Filed (op.apply localFeedback s) := by
  cases op with
  | submit action => exact h.submit hr
  | continueHand => exact h.continueHand
  | stepBot draws => exact h.stepBot hr
  | topUp =>
    rcases topUp_cases s with ⟨_, _, he⟩ | ⟨hf, _, _, he⟩
    · rw [SessionOp.apply, he]
      exact h
    · rw [SessionOp.apply, he]
      exact h.moved (hr.counted hf)
  | withdraw amount =>
    rcases withdraw_cases s amount with ⟨_, _, he⟩ | ⟨hf, _, he⟩
    · rw [SessionOp.apply, he]
      exact h
    · rw [SessionOp.apply, he]
      exact h.moved (hr.counted hf)
  | nextHand deck => exact h.nextHand hr
  | saveSettings settings =>
    rw [SessionOp.apply]
    split
    · exact h.saveSettings
    · exact h
  | solverFeedback feedback =>
    obtain ⟨decisions, he, hdecisions⟩ := recordSolverFeedback_frame s feedback
    rw [SessionOp.apply, he]
    exact h.same (Nat.le_refl _) rfl rfl rfl rfl rfl hdecisions fun _ => ⟨rfl, rfl⟩
  | reviewFeedback feedback => exact h.reviewed

theorem Opened.filed {settings : Settings} {deck : Shuffle} {table : TableSize}
    (ho : Opened settings deck table s) : Filed s := by
  refine ⟨?_, ?_, ?_, ?_, ?_, fun _ => ho.replayDecisions, fun _ => ⟨ho.sessionProfit, ho.cashEvents⟩⟩
  · rw [ho.completedHands, ho.plays.unsettled, ho.handId]
    rfl
  · rw [ho.handId]
    exact Nat.one_pos
  · rw [ho.replayReady, ho.completedHands]
    rfl
  · rw [ho.replayReady]
    simp
  · rw [ho.replayDecisions]
    exact InHand.nil _ _

/-! ## One record a decision -/

theorem InHand.nodup (h : InHand handId bound decisions) :
    (decisions.map fun d => (d.observation.handId, d.observation.revision)).Nodup := by
  have hrising := h.rising.imp Nat.ne_of_lt
  refine List.Nodup.of_map Prod.snd ?_
  rw [List.map_map]
  exact hrising

/-- The keys of one hand's records. -/
theorem keys_eq (records : List ReplayDecision) :
    records.map (·.key) = (records.map (·.decision)).map fun d => (d.observation.handId, d.observation.revision) := by
  rw [List.map_map]
  rfl

theorem InHand.keys {records : List ReplayDecision} (h : InHand handId bound (records.map (·.decision))) :
    (records.map (·.key)).Nodup ∧ ∀ k ∈ records.map (·.key), k.1 = handId := by
  rw [keys_eq]
  refine ⟨h.nodup, fun k hk => ?_⟩
  obtain ⟨d, hd, rfl⟩ := List.mem_map.mp hk
  exact h.hand d hd

/-- Hands of different numbers share no key. -/
theorem nodup_ready {hands : List CompletedHand} (hsequences : (hands.map (·.sequence)).Nodup)
    (hfiled : ∀ hand ∈ hands, hand.Filed id) : ((hands.flatMap (·.decisions)).map (·.key)).Nodup ∧
      ∀ k ∈ (hands.flatMap (·.decisions)).map (·.key), k.1 ∈ hands.map (·.sequence) := by
  induction hands with
  | nil => exact ⟨List.nodup_nil, by simp⟩
  | cons hand hands ih =>
    obtain ⟨hfresh, hrest⟩ := List.nodup_cons.mp hsequences
    obtain ⟨hnodup, hkeys⟩ := ih hrest fun h hh => hfiled h (List.mem_cons_of_mem _ hh)
    obtain ⟨bound, hin⟩ := (hfiled hand List.mem_cons_self).decisions
    obtain ⟨hown, hnumber⟩ := hin.keys
    rw [List.flatMap_cons, List.map_append]
    constructor
    · refine List.nodup_append.mpr ⟨hown, hnodup, fun k hk k' hk' e => hfresh ?_⟩
      have hold := hkeys k' hk'
      rw [← e, hnumber k hk] at hold
      exact hold
    · intro k hk
      rcases List.mem_append.mp hk with hk | hk
      · rw [hnumber k hk]
        exact List.mem_cons_self
      · exact List.mem_cons_of_mem _ (hkeys k hk)

/-- No two records of a session are of one decision. -/
theorem Filed.nodup (h : Filed s) : (s.records.map (·.key)).Nodup := by
  have hsequences : (s.replayReady.map (·.sequence)).Nodup := by
    rw [h.sequences]
    exact List.nodup_range'
  obtain ⟨hready, hkeys⟩ := nodup_ready hsequences h.ready
  obtain ⟨hcurrent, hnumber⟩ := h.current.keys
  rw [Session.records, List.map_append]
  refine List.nodup_append.mpr ⟨hcurrent, hready, fun k hk k' hk' e => ?_⟩
  have hold := hkeys k' hk'
  rw [← e, hnumber k hk, h.sequences, List.mem_range'_1] at hold
  have hnumbered := h.numbered
  cases hs : s.settled with
  | true =>
    rw [h.emptied hs] at hk
    cases hk
  | false =>
    rw [hs] at hnumbered
    simp only [Bool.not_false, Bool.toNat_true] at hnumbered
    omega

/-! ## What a decision's feedback becomes -/

/-- The feedback held for a decision. -/
def Session.evidence (s : Session) (key : Nat × Nat) : Option Feedback :=
  (s.records.find? (·.key = key)).map (·.feedback)

/-- A review is absorbed into the feedback of its decision and leaves the others. -/
theorem amend_find (feedback : Feedback) (records : List ReplayDecision) (key : Nat × Nat) :
    ((amend feedback records).2.2.find? (·.key = key)).map (·.feedback) =
      if feedback.key = key then ((records.find? (·.key = key)).map (·.feedback)).map (·.absorb feedback)
      else (records.find? (·.key = key)).map (·.feedback) := by
  have hspec := amend_spec feedback records
  generalize amend feedback records = result at hspec
  have hfront : ∀ before : List ReplayDecision, (∀ r ∈ before, r.key ≠ feedback.key) → feedback.key = key →
      before.find? (·.key = key) = none := by
    intro before hbefore he
    rw [List.find?_eq_none]
    intro r hr
    simpa [← he] using hbefore r hr
  cases hspec with
  | unknown hall =>
    split
    · rename_i he
      rw [hfront records hall he]
      rfl
    · rfl
  | @kept before after record he hbefore hkey hs hf =>
    split
    · rename_i hk
      rw [he, List.find?_append, hfront before hbefore hk, List.find?_cons, decide_eq_true (hkey.trans hk)]
      simp [Feedback.absorb, hs, hf]
    · rfl
  | @written before after record he hbefore hkey hs =>
    split
    · rename_i hk
      have hnew : ({ record with feedback := feedback } : ReplayDecision).key = key := hkey.trans hk
      rw [he, List.find?_append, List.find?_append, hfront before hbefore hk, List.find?_cons, List.find?_cons,
        decide_eq_true (hkey.trans hk), decide_eq_true hnew]
      cases hsolver : record.feedback.solver with
      | true => simp [Feedback.absorb, hs hsolver]
      | false => simp [Feedback.absorb, hsolver]
    · rename_i hk
      have hold : record.key ≠ key := fun e => hk (hkey.symm.trans e)
      have hnew : ({ record with feedback := feedback } : ReplayDecision).key ≠ key := hold
      rw [he, List.find?_append, List.find?_append, List.find?_cons, List.find?_cons, decide_eq_false hold, decide_eq_false hnew]

theorem evidence_reviewed (s : Session) (feedback : Feedback) (key : Nat × Nat) :
    (s.recordReviewFeedback feedback).2.evidence key =
      if feedback.key = key then (s.evidence key).map (·.absorb feedback) else s.evidence key := by
  rw [Session.evidence, (recordReviewFeedback_records s feedback).2, amend_find]
  rfl

theorem Filed.evidence_iff {key : Nat × Nat} {feedback : Feedback} (h : Filed s) :
    s.evidence key = some feedback ↔ ∃ record ∈ s.records, record.key = key ∧ record.feedback = feedback := by
  unfold Session.evidence
  constructor
  · intro he
    obtain ⟨record, hfind, rfl⟩ := Option.map_eq_some_iff.mp he
    have hkey := List.find?_some hfind
    exact ⟨record, List.mem_of_find?_eq_some hfind, by simpa using hkey, rfl⟩
  · intro he
    obtain ⟨record, hmem, hkey, rfl⟩ := he
    obtain ⟨found, hfound⟩ : ∃ found, s.records.find? (·.key = key) = some found := by
      rw [← Option.isSome_iff_exists, List.find?_isSome]
      exact ⟨record, hmem, by simpa using hkey⟩
    have hfoundKey := List.find?_some hfound
    simp only [decide_eq_true_eq] at hfoundKey
    have hsame : found = record :=
      List.inj_on_of_nodup_map h.nodup (List.mem_of_find?_eq_some hfound) hmem (hfoundKey.trans hkey.symm)
    rw [hfound, hsame]
    rfl

/-! ## Every order of arrivals -/

theorem records_settle (s : Session) : ∀ record ∈ s.records, record ∈ s.settle.records := by
  intro record hrecord
  rcases settle_cases s with ⟨he, _⟩ | ⟨outcome, _, _, _, he⟩
  · rw [he]
    exact hrecord
  · rw [he]
    simp only [Session.records, Session.counted, List.flatMap_append, List.nil_append, List.mem_append] at hrecord ⊢
    rcases hrecord with hin | hin
    · exact Or.inr (by simpa using hin)
    · exact Or.inl hin

/-- No call but a review takes a record away or writes into it. -/
theorem records_kept {op : SessionOp} (h : Filed s) (hr : Rests P s) (hreview : ∀ feedback, op ≠ .reviewFeedback feedback)
    (hsolver : ∀ feedback, op ≠ .solverFeedback feedback) :
    ∀ record ∈ s.records, record ∈ (op.apply localFeedback s).records := by
  cases op with
  | submit action =>
    rcases submit_cases localFeedback s action with ⟨_, he⟩ | ⟨o, _, _, _, he⟩
    · rw [SessionOp.apply, he]
      exact fun _ => id
    · rw [SessionOp.apply, he]
      intro record hrecord
      simp only [Session.records, Session.decided, List.mem_append] at hrecord ⊢
      rcases hrecord with hin | hin
      · exact Or.inl (Or.inl hin)
      · exact Or.inr hin
  | continueHand => exact records_settle s.unpaused
  | stepBot draws =>
    rcases stepBot_cases s draws with ⟨_, _, he⟩ | ⟨p, o, bot, _, _, _, _, _, _, he⟩
    · rw [SessionOp.apply, he]
      exact fun _ => id
    · rw [SessionOp.apply, he]
      exact records_settle (s.botPlayed _)
  | topUp =>
    rcases topUp_cases s with ⟨_, _, he⟩ | ⟨_, _, _, he⟩
    · rw [SessionOp.apply, he]
      exact fun _ => id
    · rw [SessionOp.apply, he]
      exact fun _ => id
  | withdraw amount =>
    rcases withdraw_cases s amount with ⟨_, _, he⟩ | ⟨_, _, he⟩
    · rw [SessionOp.apply, he]
      exact fun _ => id
    · rw [SessionOp.apply, he]
      exact fun _ => id
  | nextHand deck =>
    rcases nextHand_cases s deck with ⟨_, _, he⟩ | ⟨hready, ⟨_, _, he⟩ | ⟨_, _, ⟨_, _, he⟩ | ⟨hand, _, he⟩⟩⟩
    · rw [SessionOp.apply, he]
      exact fun _ => id
    · rw [SessionOp.apply, he]
      exact fun _ => id
    · rw [SessionOp.apply, he]
      exact fun _ => id
    · rw [SessionOp.apply, he]
      have hf : s.finished = true := by
        simp only [Session.ready, Bool.and_eq_true] at hready
        exact hready.1
      intro record hrecord
      simp only [Session.records, h.emptied (hr.counted hf), List.nil_append] at hrecord
      exact List.mem_append_right _ hrecord
  | saveSettings settings =>
    rw [SessionOp.apply]
    split
    · unfold Session.saveSettings
      dsimp only
      split
      · exact records_settle (Session.unpaused { s with settings := settings })
      · exact fun _ => id
    · exact fun _ => id
  | solverFeedback feedback => exact absurd rfl (hsolver feedback)
  | reviewFeedback feedback => exact absurd rfl (hreview feedback)

/-- The reviews of one decision among the calls, in their order. -/
def reviewsOf (key : Nat × Nat) (ops : List SessionOp) : List Feedback :=
  ops.filterMap fun op => match op with
    | .reviewFeedback feedback => if feedback.key = key then some feedback else none
    | _ => none

theorem Filed.evidence_step {op : SessionOp} {key : Nat × Nat} {held : Feedback} (localFeedback : Decision → Feedback)
    (h : Filed s) (hr : Rests P s)
    (hsolver : ∀ feedback, op ≠ .solverFeedback feedback) (he : s.evidence key = some held) :
    (op.apply localFeedback s).evidence key = some ((reviewsOf key [op]).foldl Feedback.absorb held) := by
  by_cases hreview : ∃ feedback, op = .reviewFeedback feedback
  · obtain ⟨feedback, rfl⟩ := hreview
    rw [SessionOp.apply, evidence_reviewed, he, reviewsOf]
    by_cases hkey : feedback.key = key <;> simp [hkey]
  · have hother : ∀ feedback, op ≠ .reviewFeedback feedback := fun feedback e => hreview ⟨feedback, e⟩
    have hnone : reviewsOf key [op] = [] := by
      cases op with
      | reviewFeedback feedback => exact absurd rfl (hother feedback)
      | _ => rfl
    obtain ⟨record, hin, hkey, hheld⟩ := h.evidence_iff.mp he
    rw [hnone]
    exact (h.step hr).evidence_iff.mpr ⟨record, records_kept h hr hother hsolver record hin, hkey, hheld⟩

/-- A decision's feedback is what its own reviews make of it in their order, whatever else is called between them. -/
theorem Filed.converges {ops : List SessionOp} {key : Nat × Nat} {held : Feedback} (h : Filed s) (hr : Rests (fun _ => True) s)
    (hsolver : ∀ op ∈ ops, ∀ feedback, op ≠ .solverFeedback feedback) (he : s.evidence key = some held) :
    (s.run localFeedback ops).evidence key = some ((reviewsOf key ops).foldl Feedback.absorb held) := by
  induction ops generalizing s held with
  | nil => exact he
  | cons op ops ih =>
    have hfirst := h.evidence_step localFeedback hr (hsolver op List.mem_cons_self) he
    have hrest := ih (h.step hr) (hr.step fun _ _ _ _ _ => trivial)
        (fun op' hop' => hsolver op' (List.mem_cons_of_mem _ hop')) hfirst
    rw [Session.run_cons, hrest, ← List.foldl_append]
    congr 2
    rw [reviewsOf, reviewsOf, reviewsOf, ← List.filterMap_append, List.singleton_append]

/-- Evidence of the solver stays evidence of the solver. -/
theorem absorbed_solver {held : Feedback} (reviews : List Feedback) (h : held.solver = true) :
    (reviews.foldl Feedback.absorb held).solver = true := by
  induction reviews generalizing held with
  | nil => exact h
  | cons feedback reviews ih => exact ih (absorb_solver h)

theorem Filed.run {ops : List SessionOp} (h : Filed s) (hr : Rests (fun _ => True) s) : Filed (s.run localFeedback ops) := by
  induction ops generalizing s with
  | nil => exact h
  | cons op ops ih => exact ih (h.step hr) (hr.step fun _ _ _ _ _ => trivial)

end filed

end Trainer

end OpenFelt
