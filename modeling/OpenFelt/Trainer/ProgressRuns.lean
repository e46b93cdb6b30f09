/-
  OpenFelt.Trainer.ProgressRuns — what the interface's files hold of its session.

  Between calls the lines written since the start, read back by key, are the hands saved
  so far in the order they were completed, each in the version its snapshot is of
  (`Filing`); the totals and the cash file are at their cursors (`Booking`). Every call
  keeps both, as long as no session with a completed hand is put away.
-/

import OpenFelt.Trainer.Progress
import OpenFelt.Lib.Upserts
import OpenFelt.Lib.Numerals

namespace OpenFelt

namespace Upserts

variable {α κ : Type*} [DecidableEq κ] {key : α → κ} {log : List α}

theorem read_eq_nil (h : read key log = []) : log = [] := by
  have hkeys := @keys_read _ _ _ key log
  rw [h] at hkeys
  cases log with
  | nil => rfl
  | cons x log =>
    have hmem : key x ∈ ((x :: log).map key).eraseDups := List.mem_eraseDups.mpr List.mem_cons_self
    rw [← hkeys] at hmem
    cases hmem

end Upserts

namespace Trainer

open MultiwayHand Upserts

/-! ## What a session only adds to -/

structure Grows (s s' : Session) : Prop where
  sessionId : s'.sessionId = s.sessionId
  cashEvents : s.cashEvents <+: s'.cashEvents
  replayReady : s.replayReady <+: s'.replayReady
  completedHands : s.completedHands ≤ s'.completedHands

section grows
variable {localFeedback : Decision → Feedback} {s s' s'' : Session} {P : HandConfig → Prop}

theorem Grows.refl (s : Session) : Grows s s := ⟨rfl, List.prefix_rfl, List.prefix_rfl, Nat.le_refl _⟩

theorem Grows.trans (h : Grows s s') (h' : Grows s' s'') : Grows s s'' :=
  ⟨h'.sessionId.trans h.sessionId, h.cashEvents.trans h'.cashEvents, h.replayReady.trans h'.replayReady,
    h.completedHands.trans h'.completedHands⟩

theorem settle_grows (s : Session) : Grows s s.settle := by
  rcases settle_cases s with ⟨he, _⟩ | ⟨outcome, _, _, _, he⟩
  · rw [he]
    exact .refl s
  · rw [he]
    exact ⟨rfl, List.prefix_rfl, List.prefix_append _ _, Nat.le_succ _⟩

theorem continueHand_grows (s : Session) : Grows s s.continueHand := by
  have hunpaused : Grows s s.unpaused := ⟨rfl, List.prefix_rfl, List.prefix_rfl, Nat.le_refl _⟩
  exact hunpaused.trans (settle_grows _)

theorem submit_grows (localFeedback : Decision → Feedback) (s : Session) (action : Action) :
    Grows s (s.submit localFeedback action).2 := by
  rcases submit_cases localFeedback s action with ⟨_, he⟩ | ⟨o, _, _, _, he⟩
  · rw [he]
    exact .refl s
  · rw [he]
    exact ⟨rfl, List.prefix_rfl, List.prefix_rfl, Nat.le_refl _⟩

theorem stepBot_grows (s : Session) (draws : Draws) : Grows s (s.stepBot draws).2 := by
  rcases stepBot_cases s draws with ⟨_, _, he⟩ | ⟨p, o, bot, _, _, _, _, _, _, he⟩
  · rw [he]
    exact .refl s
  · rw [he]
    have hplayed : Grows s (s.botPlayed ⟨p, bot.choose draws o⟩) := ⟨rfl, List.prefix_rfl, List.prefix_rfl, Nat.le_refl _⟩
    exact hplayed.trans (settle_grows _)

theorem moved_grows (s : Session) (n : Nat) (events : List CashEvent) : Grows s (s.moved n events) :=
  ⟨rfl, List.prefix_append _ _, List.prefix_rfl, Nat.le_refl _⟩

theorem topUp_grows (s : Session) : Grows s s.topUp.2 := by
  rcases topUp_cases s with ⟨_, _, he⟩ | ⟨_, _, _, he⟩
  · rw [he]
    exact .refl s
  · rw [he]
    exact moved_grows s _ _

theorem withdraw_grows (s : Session) (amount : Nat) : Grows s (s.withdraw amount).2 := by
  rcases withdraw_cases s amount with ⟨_, _, he⟩ | ⟨_, _, he⟩
  · rw [he]
    exact .refl s
  · rw [he]
    exact moved_grows s _ _

theorem nextHand_grows (s : Session) (deck : Shuffle) : Grows s (s.nextHand deck).2 := by
  rcases nextHand_cases s deck with ⟨_, _, he⟩ | ⟨_, ⟨_, _, he⟩ | ⟨_, _, ⟨_, _, he⟩ | ⟨_, _, he⟩⟩⟩
  · rw [he]
    exact .refl s
  · rw [he]
    exact .refl s
  · rw [he]
    exact ⟨rfl, List.prefix_append _ _, List.prefix_rfl, Nat.le_refl _⟩
  · rw [he]
    exact ⟨rfl, List.prefix_append _ _, List.prefix_rfl, Nat.le_refl _⟩

theorem saveSettings_grows (s : Session) (settings : Settings) : Grows s (s.saveSettings settings) := by
  have hkept : Grows s { s with settings := settings } := ⟨rfl, List.prefix_rfl, List.prefix_rfl, Nat.le_refl _⟩
  unfold Session.saveSettings
  dsimp only
  split
  · exact hkept.trans (continueHand_grows _)
  · exact hkept

end grows

/-! ## The keys of the completed hands -/

/-- What the archive finds a hand by. -/
def CompletedHand.key (hand : CompletedHand) : String × String := (hand.sessionId, hand.handId)

theorem Filed.nodup_keys {s : Session} (h : Filed s) : (s.replayReady.map (·.key)).Nodup := by
  have hsequences : (s.replayReady.map (·.sequence)).Nodup := by
    rw [h.sequences]
    exact List.nodup_range'
  refine List.Nodup.map_on (fun hand hin hand' hin' he => ?_) hsequences.of_map
  have hsame : s.sessionId ++ "-" ++ toString hand.sequence = s.sessionId ++ "-" ++ toString hand'.sequence := by
    rw [← (h.ready hand hin).named, ← (h.ready hand' hin').named]
    exact congrArg Prod.snd he
  have hnumber : hand.sequence = hand'.sequence := Numerals.repr_injective (String.append_right_inj _ |>.mp hsame)
  exact List.inj_on_of_nodup_map hsequences hin hin' hnumber

/-! ## One save of the hands -/

section save
variable {Line : Type} {encode : CompletedHand → Line} {room : Nat} {hands versions front : List CompletedHand}
  {snapshots : List Line}

/-- A save writes some hands of the session, and what was held of the hands becomes the versions saved. -/
structure Saves (encode : CompletedHand → Line) (room : Nat) (hands versions front : List CompletedHand)
    (result : List Line × List CompletedHand) (versions' : List CompletedHand) : Prop where
  lines : result.1 = versions'.map encode
  held : write CompletedHand.key (front ++ versions) result.2 = front ++ versions'
  keys : versions'.map (·.key) <+: hands.map (·.key)
  current : versions <+: hands → versions' <+: hands
  complete : hands.length ≤ room → versions' = hands

theorem saves_nil (front : List CompletedHand) : Saves encode room [] [] front ([], []) [] :=
  ⟨rfl, rfl, List.prefix_rfl, fun h => h, fun _ => rfl⟩

/-- A hand whose version is up to date. -/
theorem Saves.skip {hand : CompletedHand} {result : List Line × List CompletedHand} {versions' : List CompletedHand}
    (h : Saves encode room hands versions (front ++ [hand]) result versions') :
    Saves encode room (hand :: hands) (hand :: versions) front (encode hand :: result.1, result.2) (hand :: versions') := by
  refine ⟨by rw [h.lines, List.map_cons], ?_, ?_, fun hv => ?_, fun hroom => ?_⟩
  · have hheld := h.held
    simpa using hheld
  · rw [List.map_cons, List.map_cons, List.prefix_cons_inj]
    exact h.keys
  · rw [List.prefix_cons_inj] at hv ⊢
    exact h.current hv
  · rw [h.complete (Nat.le_of_succ_le hroom)]

/-- A hand written, over its version or behind the others. -/
theorem Saves.append {hand : CompletedHand} {result : List Line × List CompletedHand} {versions' old : List CompletedHand}
    (h : Saves encode room hands versions (front ++ [hand]) result versions')
    (hupsert : upsert CompletedHand.key hand (front ++ old) = front ++ hand :: versions)
    (hcurrent : old <+: hand :: hands → versions <+: hands) :
    Saves encode (room + 1) (hand :: hands) old front (encode hand :: result.1, hand :: result.2) (hand :: versions') := by
  refine ⟨by rw [h.lines, List.map_cons], ?_, ?_, fun hv => ?_, fun hroom => ?_⟩
  · have hheld := h.held
    rw [write_cons, hupsert]
    simpa using hheld
  · rw [List.map_cons, List.map_cons, List.prefix_cons_inj]
    exact h.keys
  · rw [List.prefix_cons_inj]
    exact h.current (hcurrent hv)
  · rw [h.complete (Nat.le_of_succ_le_succ hroom)]

/-- Only hands of the session are written, whatever the snapshots. -/
theorem saveHands_within [DecidableEq Line] (encode : CompletedHand → Line) (room : Nat) (hands : List CompletedHand)
    (snapshots : List Line) :
    ∀ hand ∈ (saveHands encode room hands snapshots).2, hand ∈ hands := by
  induction hands generalizing room snapshots with
  | nil => simp [saveHands]
  | cons hand hands ih =>
    unfold saveHands
    split
    · exact fun h hh => List.mem_cons_of_mem _ (ih room _ h hh)
    · cases room with
      | zero => simp
      | succ room =>
        intro h hh
        rcases List.mem_cons.mp hh with rfl | hh
        · exact List.mem_cons_self
        · exact List.mem_cons_of_mem _ (ih room _ h hh)

/-- The save loop: `front` are the versions already passed. -/
theorem saveHands_saves [DecidableEq Line] (hinj : Function.Injective encode) (hn : (hands.map (·.key)).Nodup)
    (hfront : ∀ hand ∈ hands, hand.key ∉ front.map (·.key)) (hkeys : versions.map (·.key) <+: hands.map (·.key)) :
    ∃ versions', Saves encode room hands versions front (saveHands encode room hands (versions.map encode)) versions' := by
  induction hands generalizing room versions front with
  | nil =>
    obtain rfl : versions = [] := by simpa using hkeys
    exact ⟨[], saves_nil front⟩
  | cons hand hands ih =>
    obtain ⟨hfresh, hrest⟩ := List.nodup_cons.mp hn
    have hown := hfront hand List.mem_cons_self
    have hnext : ∀ h ∈ hands, h.key ∉ (front ++ [hand]).map (·.key) := by
      intro h hh hin
      rw [List.map_append, List.mem_append] at hin
      rcases hin with hin | hin
      · exact hfront h (List.mem_cons_of_mem _ hh) hin
      · rw [List.map_singleton, List.mem_singleton] at hin
        exact hfresh (List.mem_map.mpr ⟨h, hh, hin⟩)
    cases versions with
    | nil =>
      unfold saveHands
      simp only [List.map_nil, List.head?_nil, reduceCtorEq, if_false, List.tail_nil]
      cases room with
      | zero =>
        exact ⟨[], rfl, rfl, List.nil_prefix, fun _ => List.nil_prefix, fun hroom => absurd hroom (by simp)⟩
      | succ room =>
        have hnone : ([] : List CompletedHand).map (·.key) <+: hands.map (·.key) := List.nil_prefix
        obtain ⟨versions', hsaves⟩ := ih hrest hnext hnone
        refine ⟨_, hsaves.append ?_ fun _ => List.nil_prefix⟩
        rw [List.append_nil, upsert_of_not_mem hown]
    | cons version versions =>
      simp only [List.map_cons] at hkeys
      obtain ⟨hkey, htail⟩ := List.cons_prefix_cons.mp hkeys
      unfold saveHands
      simp only [List.map_cons, List.head?_cons, Option.some.injEq, List.tail_cons]
      by_cases hsame : encode version = encode hand
      · obtain rfl := hinj hsame
        obtain ⟨versions', hsaves⟩ := ih hrest hnext htail
        rw [if_pos rfl]
        exact ⟨_, hsaves.skip⟩
      · rw [if_neg hsame]
        cases room with
        | zero =>
          refine ⟨version :: versions, rfl, rfl, ?_, fun h => h, fun hroom => absurd hroom (by simp)⟩
          rw [List.map_cons, List.map_cons, hkey, List.prefix_cons_inj]
          exact htail
        | succ room =>
          obtain ⟨versions', hsaves⟩ := ih hrest hnext htail
          refine ⟨_, hsaves.append ?_ fun hv => (List.cons_prefix_cons.mp hv).2⟩
          rw [upsert_append hown, upsert, if_pos hkey]

end save

/-! ## What a call leaves -/

/-- A session as its calls leave it. -/
structure InOrder (s : Session) : Prop where
  rests : Rests (fun _ => True) s
  filed : Filed s

theorem InOrder.step {s : Session} (h : InOrder s) (localFeedback : Decision → Feedback) (op : SessionOp) :
    InOrder (op.apply localFeedback s) :=
  ⟨h.rests.step fun _ _ _ _ _ => trivial, h.filed.step h.rests⟩

theorem InOrder.continueHand {s : Session} (h : InOrder s) : InOrder s.continueHand :=
  ⟨continueHand_rests h.rests, h.filed.continueHand⟩

theorem new_inOrder {settings : Settings} {deck : Shuffle} {id : String} {s : Session}
    (hnew : Session.new settings deck id = .ok s) :
    InOrder s := by
  obtain ⟨table, ho⟩ := new_opened hnew
  exact ⟨ho.rests trivial, ho.filed⟩

theorem new_sessionId {settings : Settings} {deck : Shuffle} {id : String} {s : Session}
    (hnew : Session.new settings deck id = .ok s) :
    s.sessionId = id := by
  unfold Session.new at hnew
  split at hnew
  · cases hnew
  split at hnew
  · cases hnew
  split at hnew
  · cases hnew
  split at hnew
  · cases hnew
  · cases hnew
    rfl

section calls
variable {Line : Type} {ui ui' : Ui Line} {session : Session} {feedback : Feedback} {p q : Progress}

/-- Hands are added to those completed, or a review has been noted. -/
inductive Completes (ui ui' : Ui Line) : Prop
  | grown : ui.session.replayReady <+: ui'.session.replayReady → ui'.reviewChanged = ui.reviewChanged → Completes ui ui'
  | reviewed : ui'.session.replayReady.map (·.unreviewed) = ui.session.replayReady.map (·.unreviewed) →
      ui'.reviewChanged = true → Completes ui ui'

def SameTotals (p q : Progress) : Prop := q.hands = p.hands ∧ q.profitChips = p.profitChips

/-- A call that leaves the cursors and the histories alone. -/
structure Tends (ui ui' : Ui Line) : Prop where
  sessionId : ui'.session.sessionId = ui.session.sessionId
  cashEvents : ui.session.cashEvents <+: ui'.session.cashEvents
  completedHands : ui.session.completedHands ≤ ui'.session.completedHands
  completes : Completes ui ui'
  totals : SameTotals ui.progress ui'.progress
  accountedHands : ui'.accountedHands = ui.accountedHands
  accountedProfit : ui'.accountedProfit = ui.accountedProfit
  cashSaved : ui'.cashSaved = ui.cashSaved
  replaySnapshots : ui'.replaySnapshots = ui.replaySnapshots
  savedProgress : ui'.savedProgress = ui.savedProgress
  progressFile : ∀ p, ui.store.progress = some p → ∃ q, ui'.store.progress = some q ∧ SameTotals p q
  cashFile : ui'.store.cashEvents = ui.store.cashEvents
  handsFile : ui'.store.completedHands = ui.store.completedHands

theorem SameTotals.refl (p : Progress) : SameTotals p p := ⟨rfl, rfl⟩

theorem SameTotals.trans {r : Progress} (h : SameTotals p q) (h' : SameTotals q r) : SameTotals p r :=
  ⟨h'.1.trans h.1, h'.2.trans h.2⟩

theorem noteDecision_totals (p : Progress) (feedback : Feedback) : SameTotals p (p.noteDecision feedback) := by
  unfold Progress.noteDecision Progress.noteReview
  dsimp only
  split <;> exact ⟨rfl, rfl⟩

theorem Grows.tends (h : Grows ui.session session) (hp : SameTotals ui.progress p) :
    Tends ui { ui with session := session, progress := p } :=
  ⟨h.sessionId, h.cashEvents, h.completedHands, .grown h.replayReady rfl, hp, rfl, rfl, rfl, rfl, rfl,
    fun p hp => ⟨p, hp, .refl p⟩, rfl, rfl⟩

theorem Tends.refl (ui : Ui Line) : Tends ui ui := (Grows.refl ui.session).tends (.refl _)

/-- A review that is written is noted. -/
theorem review_tends {changed : Bool} (hwritten : (ui.session.recordReviewFeedback feedback).1 = true → changed = true)
    (hkept : (ui.session.recordReviewFeedback feedback).1 = false → changed = ui.reviewChanged) :
    Tends ui { ui with session := (ui.session.recordReviewFeedback feedback).2, reviewChanged := changed } := by
  cases hrecorded : (ui.session.recordReviewFeedback feedback).1 with
  | false =>
    rw [recordReviewFeedback_unwritten hrecorded, hkept hrecorded]
    exact .refl ui
  | true =>
    obtain ⟨decisions, ready, he, _, hready⟩ := recordReviewFeedback_frame ui.session feedback
    rw [hwritten hrecorded, he]
    exact ⟨rfl, List.prefix_rfl, Nat.le_refl _, .reviewed hready rfl, .refl _, rfl, rfl, rfl, rfl, rfl,
      fun p hp => ⟨p, hp, .refl p⟩, rfl, rfl⟩

end calls

section steps
variable {Line : Type} [DecidableEq Line] {encode : CompletedHand → Line} {localFeedback : Decision → Feedback} {ui ui' : Ui Line}
  {op : UiOp} {ops : List UiOp}

/-- A call tends the session, saves, notes that all is saved, or puts a session away. -/
inductive Step (encode : CompletedHand → Line) (op : UiOp) (ui : Ui Line) : Ui Line → Prop
  | tends {ui' : Ui Line} : op.replaced ui = [] → Tends ui ui' → Step encode op ui ui'
  | saved (disk : Disk) : op = .save disk → Step encode op ui (ui.saveProgress encode disk)
  | noted : op.replaced ui = [] → ui.replayPersisted encode = true → Step encode op ui { ui with reviewChanged := false }
  | replaced {session : Session} {settings : Settings} {deck : Shuffle} {random : BitVec 128} : op.replaced ui = [ui.session] →
      Session.new settings deck (sessionId random) = .ok session →
        Step encode op ui { ui with session := session, firstRun := false }

omit [DecidableEq Line] in
theorem submit_step (localFeedback : Decision → Feedback) (h : InOrder ui.session) (action : Action) :
    InOrder (ui.submit localFeedback action).session ∧ Tends ui (ui.submit localFeedback action) := by
  have hin := h.step localFeedback (.submit action)
  have hgrows := submit_grows localFeedback ui.session action
  rw [SessionOp.apply] at hin
  unfold Ui.submit
  generalize ui.session.submit localFeedback action = result at hin hgrows
  obtain ⟨answer, session⟩ := result
  cases answer with
  | error e => exact ⟨hin, hgrows.tends (.refl _)⟩
  | ok decision =>
    dsimp only at hin hgrows ⊢
    have htotals := noteDecision_totals ui.progress (localFeedback decision)
    split
    · exact ⟨hin.continueHand, (hgrows.trans (continueHand_grows session)).tends htotals⟩
    · exact ⟨hin, hgrows.tends htotals⟩

theorem saveSettings_step (h : InOrder ui.session) (settings : Settings) (deck : Shuffle) (random : BitVec 128) :
    InOrder (ui.applySavedSettings settings deck random).session ∧
      Step encode (.saveSettings settings deck random) ui (ui.applySavedSettings settings deck random) := by
  have hin := h.step (fun _ => ⟨0, 0, 0, "", "", "", [], "", none⟩) (.saveSettings settings)
  have hreplaced : UiOp.replaced (.saveSettings settings deck random) ui =
      if ui.firstRun && !(ui.applySavedSettings settings deck random).firstRun then [ui.session] else [] := rfl
  rw [SessionOp.apply] at hin
  cases hvalid : settings.validate with
  | error e =>
    have he : ui.applySavedSettings settings deck random = ui := by simp only [Ui.applySavedSettings, hvalid]
    rw [he] at hreplaced ⊢
    exact ⟨h, .tends (by rw [hreplaced]; simp) (.refl ui)⟩
  | ok u =>
    cases u
    simp only [hvalid] at hin
    cases hfirst : ui.firstRun with
    | false =>
      have he : ui.applySavedSettings settings deck random = { ui with session := ui.session.saveSettings settings } := by
        simp only [Ui.applySavedSettings, hvalid, hfirst, Bool.false_eq_true, if_false]
      rw [he] at hreplaced ⊢
      exact ⟨hin, .tends (by rw [hreplaced, hfirst]; rfl) ((saveSettings_grows ui.session settings).tends (.refl _))⟩
    | true =>
      cases hnew : Session.new settings deck (sessionId random) with
      | error e =>
        have he : ui.applySavedSettings settings deck random = ui := by
          simp only [Ui.applySavedSettings, hvalid, hfirst, if_true, hnew]
        rw [he] at hreplaced ⊢
        exact ⟨h, .tends (by rw [hreplaced]; simp) (.refl ui)⟩
      | ok session =>
        have he : ui.applySavedSettings settings deck random = { ui with session := session, firstRun := false } := by
          simp only [Ui.applySavedSettings, hvalid, hfirst, if_true, hnew]
        rw [he] at hreplaced ⊢
        exact ⟨new_inOrder hnew, .replaced (by rw [hreplaced, hfirst]; rfl) hnew⟩

theorem UiOp.step (op : UiOp) (encode : CompletedHand → Line) (localFeedback : Decision → Feedback) (h : InOrder ui.session) :
    InOrder (op.apply encode localFeedback ui).session ∧ Step encode op ui (op.apply encode localFeedback ui) := by
  cases op with
  | submit action =>
    obtain ⟨hin, htends⟩ := submit_step localFeedback h action
    exact ⟨hin, .tends rfl htends⟩
  | resume =>
    show InOrder ui.resume.session ∧ Step encode .resume ui ui.resume
    unfold Ui.resume
    split
    · exact ⟨h.continueHand, .tends rfl ((continueHand_grows ui.session).tends (.refl _))⟩
    · exact ⟨h, .tends rfl (.refl ui)⟩
  | stepBot draws => exact ⟨h.step localFeedback (.stepBot draws), .tends rfl ((stepBot_grows ui.session draws).tends (.refl _))⟩
  | nextHand deck => exact ⟨h.step localFeedback (.nextHand deck), .tends rfl ((nextHand_grows ui.session deck).tends (.refl _))⟩
  | topUp => exact ⟨h.step localFeedback .topUp, .tends rfl ((topUp_grows ui.session).tends (.refl _))⟩
  | withdraw amount =>
    exact ⟨h.step localFeedback (.withdraw amount), .tends rfl ((withdraw_grows ui.session amount).tends (.refl _))⟩
  | providerResult feedback =>
    refine ⟨h.step localFeedback (.reviewFeedback feedback), .tends rfl (review_tends ?_ ?_)⟩
    · intro hwritten
      rw [hwritten, Bool.or_true]
    · intro hkept
      rw [hkept, Bool.or_false]
  | solverResult handId revision feedback =>
    have hreviewed := h.step localFeedback (.reviewFeedback feedback)
    show InOrder (ui.acceptSolverResult handId revision feedback).session ∧
      Step encode (.solverResult handId revision feedback) ui (ui.acceptSolverResult handId revision feedback)
    unfold Ui.acceptSolverResult
    split
    · exact ⟨h, .tends rfl (.refl ui)⟩
    split
    · exact ⟨h, .tends rfl (.refl ui)⟩
    split
    · rename_i hwritten
      refine ⟨hreviewed, .tends rfl (review_tends (fun _ => rfl) fun hkept => ?_)⟩
      rw [hwritten] at hkept
      cases hkept
    · rename_i hkept
      exact ⟨hreviewed, .tends rfl (review_tends (fun hwritten => absurd hwritten hkept) fun _ => rfl)⟩
  | saveSettings settings deck random => exact saveSettings_step h settings deck random
  | drilled drills =>
    refine ⟨h, .tends rfl ⟨rfl, List.prefix_rfl, Nat.le_refl _, .grown List.prefix_rfl rfl, .refl _, rfl, rfl, rfl, rfl, rfl,
      ?_, rfl, rfl⟩⟩
    intro p hp
    exact ⟨_, rfl, by rw [hp]; exact ⟨rfl, rfl⟩⟩
  | syncDrills => exact ⟨h, .tends rfl ((Grows.refl ui.session).tends ⟨rfl, rfl⟩)⟩
  | save disk => exact ⟨h, .saved disk rfl⟩
  | noteSaved =>
    show InOrder (ui.noteSaved encode).session ∧ Step encode .noteSaved ui (ui.noteSaved encode)
    unfold Ui.noteSaved
    split
    · rename_i hnoted
      simp only [Bool.and_eq_true] at hnoted
      exact ⟨h, .noted rfl hnoted.2⟩
    · exact ⟨h, .tends rfl (.refl ui)⟩

/-! ## The histories and the totals -/

/-- The history file against the session: read by key, the lines written since the start are the hands saved in the
    order they were completed, each in the version of its snapshot. -/
structure Filing (encode : CompletedHand → Line) (old : List Line) (written versions : List CompletedHand)
    (ui : Ui Line) : Prop where
  file : ui.store.completedHands = old ++ written.map encode
  held : Upserts.read CompletedHand.key written = versions
  lines : ui.replaySnapshots = versions.map encode
  keys : versions.map (·.key) <+: ui.session.replayReady.map (·.key)
  valid : ∀ hand ∈ written, hand.Filed ui.session.sessionId
  current : ui.reviewChanged = false → versions <+: ui.session.replayReady

/-- The totals and the cash file are at their cursors. -/
structure Booking (start ui : Ui Line) : Prop where
  accounted : ui.accountedHands ≤ ui.session.completedHands
  fresh : ui.accountedHands = 0 → ui.accountedProfit = 0
  hands : ui.progress.hands = start.progress.hands + UInt64.ofNat ui.accountedHands
  profit : ui.progress.profitChips = start.progress.profitChips + Int64.ofInt ui.accountedProfit
  cursor : ui.cashSaved ≤ ui.session.cashEvents.length
  cash : ui.store.cashEvents = start.store.cashEvents ++ ui.session.cashEvents.take ui.cashSaved
  saved : ∀ p, ui.savedProgress = some p → ∃ q, ui.store.progress = some q ∧ SameTotals p q

variable {old : List Line} {written versions : List CompletedHand} {start : Ui Line} {disk : Disk} {session : Session}
  {settings : Settings} {deck : Shuffle} {id : String}

omit [DecidableEq Line] in
theorem Filing.tends (h : Filing encode old written versions ui) (ht : Tends ui ui') :
    Filing encode old written versions ui' := by
  refine ⟨ht.handsFile.trans h.file, h.held, ht.replaySnapshots.trans h.lines, ?_, ?_, fun hchanged => ?_⟩
  · cases ht.completes with
    | grown hready _ => exact h.keys.trans (hready.map _)
    | reviewed hready _ =>
      have hkeys : ui'.session.replayReady.map (·.key) = ui.session.replayReady.map (·.key) := by
        have hsame := congrArg (List.map fun u : Nat × String × String × Nat × TableProjection × List Decision =>
            (u.2.1, u.2.2.1)) hready
        rw [List.map_map, List.map_map] at hsame
        exact hsame
      rw [hkeys]
      exact h.keys
  · rw [ht.sessionId]
    exact h.valid
  · cases ht.completes with
    | grown hready hsame => exact (h.current (hsame ▸ hchanged)).trans hready
    | reviewed _ hnoted =>
      rw [hnoted] at hchanged
      cases hchanged

omit [DecidableEq Line] in
theorem Booking.tends (h : Booking start ui) (ht : Tends ui ui') : Booking start ui' := by
  refine ⟨?_, ?_, ?_, ?_, ?_, ?_, fun p hp => ?_⟩
  · rw [ht.accountedHands]
    exact h.accounted.trans ht.completedHands
  · rw [ht.accountedHands, ht.accountedProfit]
    exact h.fresh
  · rw [ht.totals.1, ht.accountedHands]
    exact h.hands
  · rw [ht.totals.2, ht.accountedProfit]
    exact h.profit
  · rw [ht.cashSaved]
    exact h.cursor.trans ht.cashEvents.length_le
  · obtain ⟨more, hmore⟩ := ht.cashEvents
    rw [ht.cashFile, ht.cashSaved, ← hmore, List.take_append_of_le_length h.cursor]
    exact h.cash
  · obtain ⟨q, hq, htotals⟩ := h.saved p (ht.savedProgress ▸ hp)
    obtain ⟨r, hr, htotals'⟩ := ht.progressFile q hq
    exact ⟨r, hr, htotals.trans htotals'⟩

theorem unsavedHands_within (disk : Disk) : ∀ hand ∈ (ui.unsavedHands encode disk).2, hand ∈ ui.session.replayReady := by
  unfold Ui.unsavedHands
  split
  · exact saveHands_within encode _ _ _
  · simp

/-- A save writes what its room allows; with room for all the hands every one of them is saved as it is. -/
theorem Filing.saved (hinj : Function.Injective encode) (h : Filing encode old written versions ui) (hi : InOrder ui.session)
    (disk : Disk) : ∃ more versions', Filing encode old (written ++ more) versions' (ui.saveProgress encode disk) ∧
      (ui.session.replayReady.length ≤ disk.completedHands → versions' = ui.session.replayReady) := by
  by_cases hdue : (ui.reviewChanged || ui.replaySnapshots.length ≠ ui.session.replayReady.length) = true
  · have hsaved : ui.unsavedHands encode disk =
        saveHands encode disk.completedHands ui.session.replayReady (versions.map encode) := by
      rw [Ui.unsavedHands, if_pos hdue, h.lines]
    obtain ⟨versions', hs⟩ : ∃ versions', Saves encode disk.completedHands ui.session.replayReady versions []
        (ui.unsavedHands encode disk) versions' := by
      rw [hsaved]
      exact saveHands_saves hinj hi.filed.nodup_keys (by simp) h.keys
    refine ⟨(ui.unsavedHands encode disk).2, versions',
      ⟨?_, ?_, hs.lines, hs.keys, fun hand hhand => ?_, fun hchanged => ?_⟩, hs.complete⟩
    · show ui.store.completedHands ++ _ = _
      rw [h.file, List.map_append, List.append_assoc]
    · have hheld := hs.held
      rw [List.nil_append, List.nil_append] at hheld
      rw [Upserts.read, write_append, show write CompletedHand.key [] written = versions from h.held]
      exact hheld
    · rcases List.mem_append.mp hhand with hin | hin
      · exact h.valid hand hin
      · exact hi.filed.ready hand (unsavedHands_within disk hand hin)
    · exact hs.current (h.current hchanged)
  · have hsaved : ui.unsavedHands encode disk = (ui.replaySnapshots, []) := by rw [Ui.unsavedHands, if_neg hdue]
    simp only [ne_eq, Bool.or_eq_true, decide_eq_true_eq, not_or, Bool.not_eq_true, not_not] at hdue
    refine ⟨[], versions, ⟨?_, ?_, ?_, h.keys, ?_, h.current⟩, fun _ => ?_⟩
    · show ui.store.completedHands ++ (ui.unsavedHands encode disk).2.map encode = _
      rw [hsaved, h.file]
      simp
    · rw [List.append_nil]
      exact h.held
    · show (ui.unsavedHands encode disk).1 = _
      rw [hsaved]
      exact h.lines
    · rw [List.append_nil]
      exact h.valid
    · have hlength := hdue.2
      rw [h.lines, List.length_map] at hlength
      exact (h.current hdue.1).eq_of_length hlength

theorem Booking.save (h : Booking start ui) (hi : InOrder ui.session) (disk : Disk) :
    Booking start (ui.saveProgress encode disk) := by
  refine ⟨Nat.le_refl _, fun hzero => (hi.filed.untouched hzero).1, ?_, ?_, ?_, ?_, fun p hp => ?_⟩
  · show ui.progress.hands + (UInt64.ofNat ui.session.completedHands - UInt64.ofNat ui.accountedHands) = _
    rw [h.hands]
    show _ = start.progress.hands + UInt64.ofNat ui.session.completedHands
    grind
  · show ui.progress.profitChips + (Int64.ofInt ui.session.sessionProfit - Int64.ofInt ui.accountedProfit) = _
    rw [h.profit]
    show _ = start.progress.profitChips + Int64.ofInt ui.session.sessionProfit
    grind
  · show ui.cashSaved + (ui.unsavedCash disk).length ≤ ui.session.cashEvents.length
    have hcursor := h.cursor
    rw [Ui.unsavedCash, List.length_take, List.length_drop]
    omega
  · show ui.store.cashEvents ++ ui.unsavedCash disk =
        _ ++ ui.session.cashEvents.take (ui.cashSaved + (ui.unsavedCash disk).length)
    rw [h.cash, List.take_add, List.append_assoc, Ui.unsavedCash, List.length_take, ← List.take_eq_take_min]
  · have hwrites : (ui.saveProgress encode disk).savedProgress = if some ui.accounted ≠ ui.savedProgress ∧ disk.progress = true
        then some ui.accounted else ui.savedProgress := rfl
    have hfile : (ui.saveProgress encode disk).store.progress = if some ui.accounted ≠ ui.savedProgress ∧ disk.progress = true
        then some ui.accounted else ui.store.progress := rfl
    rw [hwrites] at hp
    rw [hfile]
    split at hp
    · rename_i hdue
      rw [if_pos hdue]
      exact ⟨p, hp, .refl p⟩
    · rename_i hnot
      rw [if_neg hnot]
      exact h.saved p hp

theorem Filing.noted (hinj : Function.Injective encode) (h : Filing encode old written versions ui)
    (hpersisted : ui.replayPersisted encode = true) : Filing encode old written versions { ui with reviewChanged := false } := by
  refine ⟨h.file, h.held, h.lines, h.keys, h.valid, fun _ => ?_⟩
  have hsame : versions.map encode = ui.session.replayReady.map encode := by
    rw [← h.lines]
    simpa [Ui.replayPersisted] using hpersisted
  rw [List.map_injective_iff.mpr hinj hsame]

omit [DecidableEq Line] in
/-- A session put away before it has completed a hand has nothing in the files. -/
theorem Filing.replaced (h : Filing encode old written versions ui) (hi : InOrder ui.session)
    (hzero : ui.session.completedHands = 0)
    (hnew : Session.new settings deck id = .ok session) :
    Filing encode old written versions { ui with session := session, firstRun := false } := by
  obtain ⟨table, ho⟩ := new_opened hnew
  have hnone : ui.session.replayReady = [] := by
    have hsequences := hi.filed.sequences
    rw [hzero] at hsequences
    simpa using hsequences
  have hversions : versions = [] := by
    have hkeys := h.keys
    rw [hnone] at hkeys
    simpa using hkeys
  subst hversions
  have hwritten := read_eq_nil h.held
  subst hwritten
  exact ⟨h.file, h.held, h.lines, List.nil_prefix, by simp, fun _ => List.nil_prefix⟩

omit [DecidableEq Line] in
theorem Booking.replaced (h : Booking start ui) (hi : InOrder ui.session) (hzero : ui.session.completedHands = 0)
    (hnew : Session.new settings deck id = .ok session) : Booking start { ui with session := session, firstRun := false } := by
  obtain ⟨table, ho⟩ := new_opened hnew
  have haccounted : ui.accountedHands = 0 := by
    have := h.accounted
    omega
  have hcash : ui.cashSaved = 0 := by
    have hcursor := h.cursor
    rw [(hi.filed.untouched hzero).2] at hcursor
    simpa using hcursor
  refine ⟨?_, h.fresh, h.hands, h.profit, ?_, ?_, h.saved⟩
  · show ui.accountedHands ≤ _
    omega
  · show ui.cashSaved ≤ _
    omega
  · have hfile := h.cash
    rw [hcash, List.take_zero] at hfile
    show ui.store.cashEvents = _ ++ session.cashEvents.take ui.cashSaved
    rw [hcash, List.take_zero]
    exact hfile

/-! ## Runs -/

/-- What every call keeps, from the state `start`. -/
structure Keeps (encode : CompletedHand → Line) (start ui : Ui Line) : Prop where
  order : InOrder ui.session
  booking : Booking start ui
  filing : ∃ written versions, Filing encode start.store.completedHands written versions ui

theorem Keeps.step (localFeedback : Decision → Feedback) (hinj : Function.Injective encode) (h : Keeps encode start ui)
    (hearly : ∀ session ∈ op.replaced ui, session.completedHands = 0) :
    Keeps encode start (op.apply encode localFeedback ui) := by
  obtain ⟨horder, hbooking, written, versions, hfiling⟩ := h
  obtain ⟨horder', hstep⟩ := op.step encode localFeedback horder
  generalize op.apply encode localFeedback ui = ui' at horder' hstep
  cases hstep with
  | tends _ ht => exact ⟨horder', hbooking.tends ht, written, versions, hfiling.tends ht⟩
  | saved disk _ =>
    obtain ⟨more, versions', hsaved, _⟩ := hfiling.saved hinj horder disk
    exact ⟨horder', hbooking.save horder disk, _, versions', hsaved⟩
  | noted _ hpersisted =>
    obtain ⟨h1, h2, h3, h4, h5, h6, h7⟩ := hbooking
    exact ⟨horder', ⟨h1, h2, h3, h4, h5, h6, h7⟩, written, versions, hfiling.noted hinj hpersisted⟩
  | replaced hreplaced hnew =>
    have hzero := hearly ui.session (by rw [hreplaced]; exact List.mem_singleton_self _)
    exact ⟨horder', hbooking.replaced horder hzero hnew, written, versions, hfiling.replaced horder hzero hnew⟩

theorem Keeps.run (hinj : Function.Injective encode) (h : Keeps encode start ui)
    (hearly : ∀ session ∈ ui.replaced encode localFeedback ops, session.completedHands = 0) :
    Keeps encode start (ui.run encode localFeedback ops) := by
  induction ops generalizing ui with
  | nil => exact h
  | cons op ops ih =>
    refine ih (h.step localFeedback hinj fun session hin => ?_) fun session hin => ?_
    · exact hearly session (List.mem_append_left _ hin)
    · exact hearly session (List.mem_append_right _ hin)

/-- Every session put away was in order. -/
theorem replaced_inOrder (h : InOrder ui.session) : ∀ session ∈ ui.replaced encode localFeedback ops, InOrder session := by
  induction ops generalizing ui with
  | nil => simp [Ui.replaced]
  | cons op ops ih =>
    obtain ⟨horder, hstep⟩ := op.step encode localFeedback h
    intro session hin
    rcases List.mem_append.mp hin with hin | hin
    · generalize op.apply encode localFeedback ui = ui' at hstep
      cases hstep with
      | tends hnone _ | noted hnone _ =>
        rw [hnone] at hin
        cases hin
      | saved _ hop =>
        rw [hop] at hin
        cases hin
      | replaced hreplaced _ =>
        rw [hreplaced, List.mem_singleton] at hin
        rw [hin]
        exact h
    · exact ih horder session hin

omit [DecidableEq Line] in
theorem start_session {random : BitVec 128} {firstRun : Bool} {store : Store Line}
    (hstart : Ui.start settings deck random firstRun store = .ok ui) :
    Session.new settings deck (sessionId random) = .ok ui.session ∧ ui.store = store ∧
      ui.progress = store.progress.getD .empty := by
  unfold Ui.start at hstart
  split at hstart
  · cases hstart
  · rename_i session hnew
    cases hstart
    exact ⟨hnew, rfl, rfl⟩

omit [DecidableEq Line] in
theorem start_keeps {random : BitVec 128} {firstRun : Bool} {store : Store Line}
    (hstart : Ui.start settings deck random firstRun store = .ok ui) : Keeps encode ui ui := by
  have hnew := (start_session hstart).1
  unfold Ui.start at hstart
  rw [hnew] at hstart
  have he := Except.ok.inj hstart
  have hinOrder := new_inOrder hnew
  refine ⟨hinOrder, ⟨?_, ?_, ?_, ?_, ?_, ?_, ?_⟩, [], [], ⟨?_, rfl, ?_, List.nil_prefix, by simp, fun _ => List.nil_prefix⟩⟩
  all_goals
    rw [← he]
  · exact Nat.zero_le _
  · exact fun _ => rfl
  · show _ = _ + UInt64.ofNat 0
    simp
  · show _ = _ + Int64.ofInt 0
    simp
  · exact Nat.zero_le _
  · simp
  · exact nofun
  · simp
  · rfl

end steps

end Trainer

end OpenFelt
