/-
  OpenFelt.Practice.Rollover — from one practice hand to the next
  (`PracticeSession::complete_hand`, `src/local_practice.rs`).

  The hand is taken out of the session before its history is asked for, and a failed
  step does not put it back. Where the history is refused (the hand is not over, or it
  took more events than a history records) the session is left with no hand.

  Proved, of every session started and every sequence of steps and rollovers: a rollover
  keeps its contract just when there is no hand, or one that can be recorded and whose
  successor still has an id (`rollover_keeps_contract`). What carries the sums over the
  run is that the current hand was dealt what the earlier ones left (`Keeps`).
-/

import OpenFelt.Practice.LocalPractice
import OpenFelt.Trainer.SessionRuns

namespace OpenFelt

open MultiwayHand RuntimeState

namespace LocalPractice

section records
variable {c : HandConfig} {posted : Nat} {p : LocalPractice} {history : SafeRingHandHistory} {q : SeatId}

/-- The hand is over, for its player and at its table, and short enough for a history. -/
structure Recordable (p : LocalPractice) : Prop where
  shown : p.isTerminal = true
  ended : p.runtime.table.hand.phase.terminal = true
  short : p.runtime.acceptedEvents.length ≤ maxHistoryActions

/-- The history is the hand's. -/
structure Records (p : LocalPractice) (history : SafeRingHandHistory) : Prop where
  handId : history.handId = p.handId
  button : history.button = p.button
  board : history.board = p.runtime.table.hand.board
  actions : history.actions = p.runtime.acceptedEvents.filterMap (·.ringAction)
  awards : history.awards = p.runtime.table.hand.awards
  finalStacks : history.finalStacks = p.runtime.table.hand.occupiedSeats.map fun q => (q, (p.runtime.table.hand.seat q).stack)

/-- What is shown of a hand when its history is asked for. -/
theorem safeHistoryMaterial_ok (s : RuntimeState) : ∃ terminal, s.safeHistoryMaterial = .ok (terminal, s.acceptedEvents) ∧
    terminal.tableId = s.table.tableId ∧ terminal.handId = s.table.handId ∧ terminal.revision = s.table.revision ∧
      s.table.hand.projectHand s.table.handId .spectator = .ok terminal.snapshot := by
  obtain ⟨view, hview, hproject⟩ := @view_ok s .spectator fun q hq => by cases hq
  refine ⟨⟨protocolVersion, s.table.tableId, s.table.handId, s.table.revision, view⟩, ?_, rfl, rfl, rfl, hproject⟩
  unfold RuntimeState.safeHistoryMaterial
  rw [hview]
  rfl

theorem Holds.safeHistory_cases (hp : p.Holds c posted) :
    (p.Recordable ∧ ∃ history, p.safeHistory = .ok history ∧ p.Records history) ∨
      (¬ p.Recordable ∧ ∃ error, p.safeHistory = .error error) := by
  obtain ⟨terminal, hmaterial, htable, hhand, hrevision, hproject⟩ := safeHistoryMaterial_ok p.runtime
  unfold projectHand at hproject
  have hshows := Except.ok.inj hproject
  have hphase : terminal.snapshot.phase = p.runtime.table.hand.phase := by rw [← hshows]
  have haudience : terminal.snapshot.audience = .spectator := by rw [← hshows]
  unfold safeHistory
  cases hshown : p.isTerminal with
  | false =>
    have hnot : ¬ p.Recordable := by
      intro hr
      have := hr.shown
      rw [hshown] at this
      cases this
    exact Or.inr ⟨hnot, _, rfl⟩
  | true =>
    rw [Bool.not_true, if_neg Bool.false_ne_true, hmaterial]
    dsimp only
    cases hover : p.runtime.table.hand.phase.terminal with
    | false =>
      have hnot : ¬ p.Recordable := by
        intro hr
        have := hr.ended
        rw [hover] at this
        cases this
      unfold SafeRingHandHistory.fromPublicTerminal
      rw [if_neg (not_not_intro haudience), hphase, hover]
      exact Or.inr ⟨hnot, _, rfl⟩
    | true =>
      have hlog : LoggedFrom terminal.tableId terminal.handId terminal.revision p.runtime.acceptedEvents := by
        rw [htable, hhand, hrevision]
        exact hp.logs
      rw [hlog.history haudience (hphase ▸ hover)]
      by_cases hshort : maxHistoryActions < p.runtime.acceptedEvents.length
      · rw [if_pos hshort]
        exact Or.inr ⟨fun hr => absurd hr.short (Nat.not_le.mpr hshort), _, rfl⟩
      · rw [if_neg hshort]
        have hkept := hp.serves.stage.kept hp.backed
        refine Or.inl ⟨⟨hshown, hover, Nat.not_lt.mp hshort⟩, _, rfl, ?_, ?_, ?_, rfl, ?_, ?_⟩
        · exact hhand.trans (hp.serves.handId.trans hp.handId)
        · rw [← hshows]
          exact hkept.button.trans hp.button
        · rw [← hshows]
        · rw [← hshows]
        · rw [← hshows, List.map_map]
          rfl

/-! ## What a hand leaves -/

/-- The seats left with chips. -/
def survivors (p : LocalPractice) : List SeatId :=
  p.runtime.table.hand.occupiedSeats.filter fun q => 0 < (p.runtime.table.hand.seat q).stack

/-- The seats left with chips, and their chips. -/
def remaining (p : LocalPractice) : List (SeatId × Nat) := p.survivors.map fun q => (q, (p.runtime.table.hand.seat q).stack)

/-- The local player and somebody else have chips left. -/
def GoesOn (p : LocalPractice) : Prop := 0 ∈ p.survivors ∧ ∃ q ∈ p.survivors, q ≠ 0

theorem mem_survivors : q ∈ p.survivors ↔ q ∈ p.runtime.table.hand.occupiedSeats ∧ 0 < (p.runtime.table.hand.seat q).stack := by
  simp only [survivors, List.mem_filter, decide_eq_true_eq]

theorem nodup_survivors (p : LocalPractice) : p.survivors.Nodup := (nodup_occupiedSeats _).filter _

theorem remaining_seats (p : LocalPractice) : p.remaining.map (·.1) = p.survivors := by
  rw [remaining, List.map_map]
  exact List.map_id _

theorem Records.occupied (hr : p.Records history) : PracticeSession.occupied history = p.remaining := by
  rw [PracticeSession.occupied, hr.finalStacks, List.filter_map]
  rfl

theorem Records.lookup (hr : p.Records history) (hq : q ∈ p.runtime.table.hand.occupiedSeats) :
    history.finalStacks.lookup q = some (p.runtime.table.hand.seat q).stack := by
  rw [hr.finalStacks]
  exact List.lookup_graph (fun q => (p.runtime.table.hand.seat q).stack) hq

theorem Holds.dealtIn (hp : p.Holds c posted) : q ∈ p.runtime.table.hand.occupiedSeats ↔ q ∈ p.openingStacks.map (·.1) := by
  rw [hp.serves.stage.seated.1, List.lookup_isSome_iff, hp.seatStacks]
  simp

theorem Holds.inside (hp : p.Holds c posted) (hq : q ∈ p.runtime.table.hand.occupiedSeats) : q.val < p.tableSize.get := by
  have hmem := (List.mem_filter.mp hq).1
  rw [TableSize.mem_seats, hp.serves.stage.seated.2, hp.tableSize] at hmem
  exact hmem

theorem Holds.button_inside (hp : p.Holds c posted) : p.button.val < p.tableSize.get := by
  refine hp.inside ((hp.serves.stage.seated.1 _).mpr ?_)
  rw [← hp.button]
  exact hp.buttonSeated

/-- The chips of the table are those it was dealt. -/
theorem Holds.conserved (hp : p.Holds c posted) (hover : p.runtime.table.hand.phase.terminal = true) (hr : p.Records history) :
    (history.finalStacks.map (·.2)).sum = (p.openingStacks.map (·.2)).sum := by
  have hclosed := (hp.serves.stage.over_of_terminal hover).closed
  have hchips := (hp.serves.stage.awarded hp.backed hclosed).chips
  have hinitial := (hp.serves.stage.sums hp.backed).initial
  rw [hr.finalStacks, List.map_map, ← hp.seatStacks, ← hinitial, ← hchips]
  rfl

theorem Holds.fits (hp : p.Holds c posted) : (p.remaining.map (·.2)).sum ≤ u32Max := by
  have hsum : (p.remaining.map (·.2)).sum ≤ p.runtime.table.hand.sumSeats (·.stack) := by
    rw [remaining, List.map_map]
    exact ((List.filter_sublist).map _).sum_le_sum fun _ _ => Nat.zero_le _
  have htotal : p.runtime.table.hand.sumSeats (·.stack) ≤ p.runtime.table.hand.totalChips := by
    unfold totalChips
    exact Nat.le_add_right _ _
  exact hsum.trans (htotal.trans (hp.serves.stage.sums hp.backed).fits)

theorem GoesOn.two (hg : p.GoesOn) : 2 ≤ p.remaining.length := by
  obtain ⟨hlocal, q, hq, hne⟩ := hg
  have hsub : [0, q] ⊆ p.survivors := by
    intro r hr
    rcases List.mem_pair.mp hr with rfl | rfl
    · exact hlocal
    · exact hq
  have hpair : [0, q].Nodup := by simpa using Ne.symm hne
  have := (hpair.subperm hsub).length_le
  rw [remaining, List.length_map]
  exact this

/-- What is left makes a hand for any button among the survivors. -/
theorem Holds.builds {button : SeatId} (hp : p.Holds c posted) (hg : p.GoesOn) (hbutton : button ∈ p.survivors) (deck : Deck) :
    ∃ hand, (practiceConfig p.tableSize button p.remaining deck).build = .ok hand := by
  have hseat : ∀ entry ∈ p.remaining, entry.1 ∈ p.survivors := by
    intro entry hentry
    rw [← remaining_seats]
    exact List.mem_map_of_mem hentry
  refine HandConfig.builds_of_fits rfl rfl hg.two ?_ (fun entry hentry => ?_) (fun entry hentry => ?_) hp.fits ?_
  · exact (remaining_seats p).symm ▸ nodup_survivors p
  · exact hp.inside (mem_survivors.mp (hseat entry hentry)).1
  · obtain ⟨q, hq, rfl⟩ := List.mem_map.mp hentry
    exact (mem_survivors.mp hq).2
  · exact (remaining_seats p).symm ▸ hbutton

end records

end LocalPractice

open LocalPractice

/-! ## One rollover -/

/-- The nearest of some seats clockwise after one that is left out. -/
structure NearestAfter (size : TableSize) (start : SeatId) (seats : List SeatId) (q : SeatId) : Prop where
  among : q ∈ seats
  moved : q ≠ start
  nearest : ∀ r ∈ seats, r ≠ start → clockwiseAwardKey size start q ≤ clockwiseAwardKey size start r

namespace PracticeSession

/-- Hand `p` of session `s` is recorded, and the next one, if play goes on, has the id `nextId`;
    `earlier` are the summaries of the hands before it. -/
structure RollsOver (earlier : List PracticeHandSummary) (s : PracticeSession) (p : LocalPractice) (nextId : HandId)
    (summary : PracticeHandSummary) (s' : PracticeSession) : Prop where
  tableSize : s'.tableSize = s.tableSize
  opening : s'.sessionOpeningStack = s.sessionOpeningStack
  histories : s'.histories = s.histories ++ [summary.history]
  records : p.Records summary.history
  conserved : (summary.history.finalStacks.map (·.2)).sum = (p.openingStacks.map (·.2)).sum
  net : summary.net = ((p.runtime.table.hand.seat 0).stack : Int) - p.openingStack 0
  sessionNet : summary.sessionNet = ((earlier ++ [summary]).map (·.net)).sum
  continues : summary.canContinue = true ↔ p.GoesOn
  stops : ¬ p.GoesOn → s'.current = none
  next : p.GoesOn → ∃ next button, s'.current = some next ∧ NearestAfter s.tableSize p.button p.survivors button ∧
    next.Deals s.tableSize button nextId p.remaining

/-- What a rollover promises: on an error nothing has changed; otherwise the hand is recorded
    and the next one is its successor. -/
def Contract (earlier : List PracticeHandSummary) (s : PracticeSession) :
    Except PracticeError PracticeHandSummary × PracticeSession → Prop
  | (.error _, s') => s' = s
  | (.ok summary, s') => ∃ p, s.current = some p ∧ RollsOver earlier s p ⟨p.handId.id + 1⟩ summary s'

/-- There is no hand, or one that can be recorded and, if play goes on, has a successor. -/
def Completes (s : PracticeSession) : Prop := ∀ p, s.current = some p → p.Recordable ∧ (p.GoesOn → p.handId.id < u64Max)

/-- Hand `p` was dealt what the earlier hands of the session left. -/
structure Follows (earlier : List PracticeHandSummary) (s : PracticeSession) (p : LocalPractice) : Prop where
  holds : ∃ c posted, p.Holds c posted
  tableSize : p.tableSize = s.tableSize
  dealtIn : (0 : SeatId) ∈ p.openingStacks.map (·.1)
  opening : (p.openingStack 0 : Int) = s.sessionOpeningStack + (earlier.map (·.net)).sum

def Keeps (earlier : List PracticeHandSummary) (s : PracticeSession) : Prop := ∀ p, s.current = some p → s.Follows earlier p

section rollover
variable {c : HandConfig} {posted : Nat} {s s' : PracticeSession} {p : LocalPractice} {history : SafeRingHandHistory}
  {earlier : List PracticeHandSummary} {summary : PracticeHandSummary} {nextId : HandId}

theorem nextButton_eligible (hr : p.Records history) (q : SeatId) :
    ((occupied history).any fun entry => entry.1 = q) = true ↔ q ∈ p.survivors := by
  rw [hr.occupied, ← remaining_seats]
  simp

theorem nextButton_nearest (hp : p.Holds c posted) (hsize : p.tableSize = s.tableSize) (hr : p.Records history) {button : SeatId}
    (h : s.nextButton history = some button) : NearestAfter s.tableSize p.button p.survivors button := by
  unfold nextButton at h
  rw [hr.button] at h
  obtain ⟨_, _, hamong, hmoved, hnearest⟩ := nextEligible_some h
  refine ⟨(nextButton_eligible hr _).mp hamong, hmoved, fun r hr' hne => hnearest r ?_ ((nextButton_eligible hr r).mpr hr') hne⟩
  rw [← hsize]
  exact hp.inside (mem_survivors.mp hr').1

/-- Two survivors leave a seat for the button to move to. -/
theorem nextButton_ok (hp : p.Holds c posted) (hsize : p.tableSize = s.tableSize) (hr : p.Records history) (hg : p.GoesOn) :
    ∃ button, s.nextButton history = some button := by
  obtain ⟨hlocal, q, hq, hne⟩ := hg
  have hother : ∃ r ∈ p.survivors, r ≠ p.button := by
    by_cases hzero : p.button = 0
    · exact ⟨q, hq, hzero ▸ hne⟩
    · exact ⟨0, hlocal, Ne.symm hzero⟩
  obtain ⟨r, hr', hmoved⟩ := hother
  unfold nextButton
  rw [hr.button, ← hsize]
  exact nextEligible_isSome hp.button_inside (hp.inside (mem_survivors.mp hr').1) ((nextButton_eligible hr r).mpr hr') hmoved

theorem summarize_finalStack (hp : p.Holds c posted) (hlocal : (0 : SeatId) ∈ p.openingStacks.map (·.1))
    (hr : p.Records history) :
    (s.summarize p history).finalStack = (p.runtime.table.hand.seat 0).stack := by
  unfold summarize
  rw [hr.lookup (hp.dealtIn.mpr hlocal)]
  rfl

theorem summarize_continues (hp : p.Holds c posted) (hsize : p.tableSize = s.tableSize)
    (hlocal : (0 : SeatId) ∈ p.openingStacks.map (·.1)) (hr : p.Records history) :
    (s.summarize p history).canContinue = true ↔ p.GoesOn := by
  have hstack := summarize_finalStack (s := s) hp hlocal hr
  have hcontinue : (s.summarize p history).canContinue = (decide (0 < (s.summarize p history).finalStack) &&
      decide (2 ≤ (occupied history).length) && (s.nextButton history).isSome) := rfl
  rw [hcontinue, hstack, hr.occupied, Bool.and_eq_true, Bool.and_eq_true, decide_eq_true_eq, decide_eq_true_eq]
  constructor
  · intro ⟨⟨hchips, htwo⟩, _⟩
    refine ⟨mem_survivors.mpr ⟨hp.dealtIn.mpr hlocal, hchips⟩, ?_⟩
    by_contra hnone
    push Not at hnone
    have hsub : p.survivors ⊆ [0] := fun q hq => List.mem_singleton.mpr (hnone q hq)
    have := ((nodup_survivors p).subperm hsub).length_le
    rw [remaining, List.length_map] at htwo
    simp only [List.length_cons, List.length_nil] at this
    omega
  · intro hg
    obtain ⟨button, hbutton⟩ := nextButton_ok hp hsize hr hg
    exact ⟨⟨(mem_survivors.mp hg.1).2, hg.two⟩, by rw [hbutton]; rfl⟩

variable (actionLog : NetworkApp → List String) (shuffle : PracticeShuffle) (nonce : Nat)

theorem completeHand_none (hnone : s.current = none) : ∃ error, s.completeHand actionLog shuffle nonce = (.error error, s) := by
  unfold completeHand
  rw [hnone]
  exact ⟨_, rfl⟩

/-- A hand whose history is refused is gone from its session. -/
theorem completeHand_lost (hcurrent : s.current = some p) (hp : p.Holds c posted) (hnot : ¬ p.Recordable) :
    ∃ error, s.completeHand actionLog shuffle nonce = (.error error, { s with current := none }) := by
  rcases hp.safeHistory_cases with ⟨hr, _⟩ | ⟨_, error, herror⟩
  · exact absurd hr hnot
  unfold completeHand
  rw [hcurrent]
  dsimp only
  rw [herror]
  exact ⟨error, rfl⟩

/-- The sums of a summary follow from what the hand was dealt. -/
theorem Follows.sessionNet (hf : s.Follows earlier p) (history : SafeRingHandHistory) :
    (s.summarize p history).sessionNet = ((earlier ++ [s.summarize p history]).map (·.net)).sum := by
  have hopening := hf.opening
  simp only [summarize, List.map_append, List.sum_append, List.map_cons, List.map_nil, List.sum_cons, List.sum_nil]
  omega

theorem completeHand_recorded (hcurrent : s.current = some p) (hf : s.Follows earlier p) (hrecordable : p.Recordable) :
    ∃ summary s', s.completeHand actionLog shuffle nonce = (.ok summary, s') ∧
      RollsOver earlier s p ⟨saturatingAdd64 p.handId.id 1⟩ summary s' := by
  obtain ⟨c, posted, hp⟩ := hf.holds
  rcases hp.safeHistory_cases with ⟨_, history, hhistory, hr⟩ | ⟨hnot, _⟩
  case inr => exact absurd hrecordable hnot
  have hconserved := hp.conserved hrecordable.ended hr
  have hcontinues := summarize_continues hp hf.tableSize hf.dealtIn hr
  have hstack := summarize_finalStack (s := s) hp hf.dealtIn hr
  have hnet : (s.summarize p history).net = ((p.runtime.table.hand.seat 0).stack : Int) - p.openingStack 0 := by
    rw [← hstack]
    rfl
  unfold completeHand
  rw [hcurrent]
  dsimp only
  rw [hhistory]
  dsimp only
  by_cases hg : p.GoesOn
  · obtain ⟨button, hbutton⟩ := nextButton_ok hp hf.tableSize hr hg
    have hnearest := nextButton_nearest hp hf.tableSize hr hbutton
    obtain ⟨hand, hbuild⟩ := hp.builds hg hnearest.among
      (shuffle (s.reviewSeed.map fun seed => saturatingAdd64 seed (saturatingAdd64 history.handId.id 1))).val
    obtain ⟨next, hnext, hdeals⟩ := @fromStacks_deals p.tableSize button
      ⟨saturatingAdd64 history.handId.id 1⟩ p.remaining _ hand shuffle hbuild
      ((remaining_seats p).symm ▸ nodup_survivors p) ((remaining_seats p).symm ▸ hg.1) nonce
    rw [hf.tableSize] at hnext hdeals
    rw [if_pos (hcontinues.mpr hg), hbutton]
    dsimp only
    rw [hr.occupied, hnext]
    refine ⟨_, _, rfl, rfl, rfl, rfl, hr, hconserved, hnet, hf.sessionNet history, hcontinues,
      fun hnot => absurd hg hnot, fun _ => ?_⟩
    rw [← hr.handId]
    exact ⟨next, button, rfl, hnearest, hdeals⟩
  · rw [if_neg fun hcontinue => hg (hcontinues.mp hcontinue)]
    exact ⟨_, _, rfl, rfl, rfl, rfl, hr, hconserved, hnet, hf.sessionNet history, hcontinues,
      fun _ => rfl, fun hg' => absurd hg' hg⟩

/-- The next hand follows the ones recorded. -/
theorem RollsOver.keeps (h : RollsOver earlier s p nextId summary s') (hf : s.Follows earlier p) :
    s'.Keeps (earlier ++ [summary]) := by
  intro q hq
  by_cases hg : p.GoesOn
  case neg =>
    rw [h.stops hg] at hq
    cases hq
  obtain ⟨next, button, hcurrent, _, hdeals⟩ := h.next hg
  obtain rfl : next = q := by
    rw [hcurrent] at hq
    exact Option.some.inj hq
  obtain ⟨c, posted, _, hp⟩ := hdeals.dealt
  refine ⟨⟨c, posted, hp⟩, hdeals.tableSize.trans h.tableSize.symm, ?_, ?_⟩
  · rw [hdeals.openingStacks, remaining_seats]
    exact hg.1
  · have hopening : next.openingStack 0 = (p.runtime.table.hand.seat 0).stack := by
      unfold openingStack
      rw [hdeals.openingStacks, remaining, List.lookup_graph (fun q => (p.runtime.table.hand.seat q).stack) hg.1]
      rfl
    have hbefore := hf.opening
    have hnet := h.net
    rw [hopening, h.opening, List.map_append, List.sum_append, List.map_singleton, List.sum_singleton]
    omega

/-! ## Runs -/

theorem Follows.hand (hf : s.Follows earlier p) (step : HandStep) : s.Follows earlier (step.apply p) := by
  obtain ⟨⟨c, posted, hp⟩, hsize, hdealt, hopening⟩ := hf
  have hkept : (step.apply p).tableSize = p.tableSize ∧ (step.apply p).openingStacks = p.openingStacks := by
    cases step <;> exact ⟨rfl, rfl⟩
  refine ⟨⟨c, posted, hp.step step⟩, hkept.1.trans hsize, hkept.2 ▸ hdealt, ?_⟩
  unfold openingStack at hopening ⊢
  rw [hkept.2]
  exact hopening

theorem Keeps.completeHand (hk : s.Keeps earlier) : (s.completeHand actionLog shuffle nonce).2.Keeps
    (earlier ++ (s.completeHand actionLog shuffle nonce).1.toOption.toList) := by
  cases hcurrent : s.current with
  | none =>
    obtain ⟨error, herror⟩ := completeHand_none actionLog shuffle nonce hcurrent
    rw [herror]
    intro q hq
    rw [hcurrent] at hq
    cases hq
  | some p =>
    have hf := hk p hcurrent
    by_cases hr : p.Recordable
    · obtain ⟨summary, s', hok, hrolls⟩ := completeHand_recorded actionLog shuffle nonce hcurrent hf hr
      rw [hok]
      exact hrolls.keeps hf
    · obtain ⟨c, posted, hp⟩ := hf.holds
      obtain ⟨error, herror⟩ := completeHand_lost actionLog shuffle nonce hcurrent hp hr
      rw [herror]
      intro q hq
      cases hq

theorem Keeps.run (hk : s.Keeps earlier) (ops : List PracticeOp) :
    (s.run actionLog ops).Keeps (earlier ++ s.summaries actionLog ops) := by
  induction ops generalizing s earlier with
  | nil => exact (List.append_nil earlier).symm ▸ hk
  | cons op rest ih =>
    unfold summaries
    rw [← List.append_assoc]
    refine @ih (s.step actionLog op) _ ?_
    cases op with
    | hand step =>
      intro q hq
      obtain ⟨p, hcurrent, rfl⟩ := Option.map_eq_some_iff.mp hq
      obtain ⟨hholds, hsize, hdealt, hopening⟩ := (hk p hcurrent).hand step
      refine ⟨hholds, hsize, hdealt, hopening.trans ?_⟩
      rw [Option.toList_none, List.append_nil]
      rfl
    | complete shuffle nonce => exact hk.completeHand actionLog shuffle nonce

/-- The contract of one rollover, with the hands before it. -/
theorem Keeps.contract_iff (hk : s.Keeps earlier) :
    Contract earlier s (s.completeHand actionLog shuffle nonce) ↔ s.Completes := by
  cases hcurrent : s.current with
  | none =>
    obtain ⟨error, herror⟩ := completeHand_none actionLog shuffle nonce hcurrent
    rw [herror]
    refine ⟨fun _ q hq => ?_, fun _ => rfl⟩
    rw [hcurrent] at hq
    cases hq
  | some p =>
    have hf := hk p hcurrent
    by_cases hr : p.Recordable
    case neg =>
      obtain ⟨c, posted, hp⟩ := hf.holds
      obtain ⟨error, herror⟩ := completeHand_lost actionLog shuffle nonce hcurrent hp hr
      rw [herror]
      refine ⟨fun hsame => ?_, fun hcompletes => absurd (hcompletes p hcurrent).1 hr⟩
      have := congrArg current hsame
      rw [hcurrent] at this
      cases this
    obtain ⟨summary, s', hok, hrolls⟩ := completeHand_recorded actionLog shuffle nonce hcurrent hf hr
    rw [hok]
    constructor
    · rintro ⟨q, hq, hcontract⟩ r hr'
      obtain rfl : p = q := Option.some.inj (hcurrent.symm.trans hq)
      obtain rfl : p = r := Option.some.inj (hcurrent.symm.trans hr')
      refine ⟨hr, fun hg => ?_⟩
      -- the next hand has both ids
      obtain ⟨next, _, hnext, _, hdeals⟩ := hrolls.next hg
      obtain ⟨next', _, hnext', _, hdeals'⟩ := hcontract.next hg
      obtain rfl : next = next' := Option.some.inj (hnext.symm.trans hnext')
      have hid := congrArg HandId.id (hdeals.handId.symm.trans hdeals'.handId)
      simp only [saturatingAdd64] at hid
      omega
    · intro hcompletes
      have hroom := (hcompletes p hcurrent).2
      refine ⟨p, hcurrent, { hrolls with next := fun hg => ?_ }⟩
      have hid : saturatingAdd64 p.handId.id 1 = p.handId.id + 1 := by
        have := hroom hg
        simp only [saturatingAdd64]
        omega
      rw [← hid]
      exact hrolls.next hg

/-- A session starts with nothing won or lost. -/
theorem start_keeps {tableSize : TableSize} {startingStack : Nat} {reviewSeed : Option Nat}
    (h : start tableSize startingStack reviewSeed shuffle nonce = .ok s) : s.Keeps [] := by
  let seatStacks := tableSize.seats.map fun seat => (seat, startingStack)
  have hplaces : seatStacks.map (·.1) = tableSize.seats := by
    rw [List.map_map]
    exact List.map_id _
  have hlocal : (0 : SeatId) ∈ tableSize.seats := tableSize.mem_seats.mpr tableSize.pos
  unfold start at h
  cases hb : (practiceConfig tableSize 0 seatStacks (shuffle reviewSeed).val).build with
  | error error =>
    unfold fromStacks at h
    rw [hb] at h
    cases h
  | ok hand =>
    obtain ⟨p, hp, hdeals⟩ := @fromStacks_deals tableSize 0 ⟨1⟩ seatStacks reviewSeed hand shuffle hb
      (hplaces ▸ tableSize.nodup_seats) (hplaces ▸ hlocal) nonce
    rw [hp] at h
    cases h
    intro q hq
    cases hq
    obtain ⟨c, posted, _, hholds⟩ := hdeals.dealt
    refine ⟨⟨c, posted, hholds⟩, hdeals.tableSize, ?_, ?_⟩
    · rw [hdeals.openingStacks, hplaces]
      exact hlocal
    · unfold openingStack
      rw [hdeals.openingStacks, List.lookup_graph (fun _ => startingStack) hlocal]
      simp

/-- Whatever happened in the session, a rollover keeps its contract just when there is no
    hand, or one that can be recorded and whose successor has an id. -/
theorem rollover_keeps_contract (tableSize : TableSize) (startingStack : Nat) (reviewSeed : Option Nat)
    (shuffle shuffle' : PracticeShuffle)
    (nonce nonce' : Nat) (actionLog : NetworkApp → List String) (s : PracticeSession) (ops : List PracticeOp)
    (hstart : start tableSize startingStack reviewSeed shuffle nonce = .ok s) :
    Contract (s.summaries actionLog ops) (s.run actionLog ops) ((s.run actionLog ops).completeHand actionLog shuffle' nonce') ↔
      (s.run actionLog ops).Completes :=
  ((start_keeps shuffle nonce hstart).run actionLog ops).contract_iff actionLog shuffle' nonce'

/-- A deck as it is unpacked. -/
def unshuffled : PracticeShuffle := fun _ => ⟨.new, Deck.new_shuffled⟩

/-- The local player of the current hand folds and is told what became of it. -/
def foldsFirst (s : PracticeSession) : List PracticeOp :=
  match s.current with
  | none => []
  | some p =>
    match p.app.prepareAction .fold with
    | (.error _, _) => []
    | (.ok command, _) =>
      let submit : RuntimeOp := .submit p.localSession command
      let updates := (submit.apply p.runtime).channel p.localSession
      .hand (.act .fold) :: .hand (.request submit) :: updates.map fun update => .hand (.message (.update update))

/-- The current hand as the rollover asks for it. -/
def ready (s : PracticeSession) : Bool :=
  s.current.any fun p => p.isTerminal && p.runtime.table.hand.phase.terminal &&
    decide (p.runtime.acceptedEvents.length ≤ maxHistoryActions) &&
    decide (p.handId.id < u64Max)

theorem ready_completes (h : s.ready = true) : s.Completes := by
  intro p hcurrent
  unfold ready at h
  rw [hcurrent, Option.any_some] at h
  simp only [Bool.and_eq_true, decide_eq_true_eq] at h
  obtain ⟨⟨⟨hshown, hover⟩, hshort⟩, hid⟩ := h
  exact ⟨⟨hshown, hover, hshort⟩, fun _ => hid⟩

theorem rollover_keeps_contract_folded : ∃ s, start ⟨2, by decide, by decide⟩ 100 none unshuffled 0 = .ok s ∧
    (s.run (fun _ => []) s.foldsFirst).ready = true ∧
      Contract (s.summaries (fun _ => []) s.foldsFirst) (s.run (fun _ => []) s.foldsFirst)
        ((s.run (fun _ => []) s.foldsFirst).completeHand (fun _ => []) unshuffled 0) := by
  have hrun : (start ⟨2, by decide, by decide⟩ 100 none unshuffled 0).toOption.any
      (fun s => (s.run (fun _ => []) s.foldsFirst).ready) = true := by decide +kernel
  cases hstart : start ⟨2, by decide, by decide⟩ 100 none unshuffled 0 with
  | error error =>
    rw [hstart] at hrun
    cases hrun
  | ok s =>
    rw [hstart] at hrun
    have hready : (s.run (fun _ => []) s.foldsFirst).ready = true := hrun
    exact ⟨s, rfl, hready, (rollover_keeps_contract _ 100 none unshuffled unshuffled 0 0 (fun _ => []) s s.foldsFirst hstart).mpr
      (ready_completes hready)⟩

/-- Asked for the summary of a hand that has just been dealt, the session refuses and has no hand left. -/
theorem early_rollover_loses_hand : ∃ s p, start ⟨9, by decide, by decide⟩ 100 none unshuffled 0 = .ok s ∧ s.current = some p ∧
    s.completeHand (fun _ => []) unshuffled 0 =
      (.error (.message "practice hand must be terminal before history capture"), { s with current := none }) ∧
    ¬ Contract [] s (s.completeHand (fun _ => []) unshuffled 0) := by
  have hdealt : (start ⟨9, by decide, by decide⟩ 100 none unshuffled 0).toOption.any
      (fun s => s.current.any fun p => !p.isTerminal) = true := by decide +kernel
  cases hstart : start ⟨9, by decide, by decide⟩ 100 none unshuffled 0 with
  | error error =>
    rw [hstart] at hdealt
    cases hdealt
  | ok s =>
    rw [hstart] at hdealt
    cases hcurrent : s.current with
    | none =>
      simp only [Except.toOption, Option.any_some, hcurrent, Option.any_none] at hdealt
      cases hdealt
    | some p =>
      simp only [Except.toOption, Option.any_some, hcurrent, Bool.not_eq_true'] at hdealt
      have hrefused : s.completeHand (fun _ => []) unshuffled 0 =
          (.error (.message "practice hand must be terminal before history capture"), { s with current := none }) := by
        unfold completeHand safeHistory
        rw [hcurrent]
        dsimp only
        rw [hdealt]
        rfl
      refine ⟨s, p, rfl, hcurrent, hrefused, ?_⟩
      rw [hrefused]
      intro hsame
      have := congrArg current hsame
      rw [hcurrent] at this
      cases this

end rollover

end PracticeSession

end OpenFelt
