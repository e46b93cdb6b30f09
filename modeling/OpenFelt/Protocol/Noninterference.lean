/-
  OpenFelt.Protocol.Noninterference — before cards are tabled, nothing an audience gets
  depends on cards hidden from it.

  An authority whose hand is masked for its audience gives the same answers, events,
  revisions and views as the authority itself (`observed_masked`). Proved from it
  (`run_noninterferent`): two hands of one configuration whose decks agree on the audience's
  cards and on the board dealt so far are the same to that audience and to a spectator,
  call by call.
-/

import OpenFelt.Game.Hidden
import OpenFelt.Protocol.ExactlyOnce

namespace OpenFelt

open MultiwayHand

/-- The seat an audience holds. -/
def ProjectionAudience.viewer : ProjectionAudience → Option SeatId
  | player seat => some seat
  | spectator => none

/-- What a call hands back: a receipt, or the event of a showdown advance. -/
def AuthorityOp.answer : AuthorityOp → ProtocolAuthority → SubmissionReceipt ⊕ Option EventEnvelope
  | submit envelope server, a => .inl (a.submitFrom envelope server).1
  | advanceShowdown, a => .inr a.advanceShowdown.1

/-- What can be seen of one call: its answer, the revision it leaves and the views it publishes. -/
structure Observation where
  answer : SubmissionReceipt ⊕ Option EventEnvelope
  revision : Nat
  view : Except ProjectionError SnapshotEnvelope
  publicView : Except ProjectionError SnapshotEnvelope

namespace ProtocolAuthority

def observed (audience : ProjectionAudience) (a : ProtocolAuthority) : List AuthorityOp → List Observation
  | [] => []
  | op :: ops =>
    ⟨op.answer a, (op.apply a).revision, (op.apply a).snapshot audience, (op.apply a).snapshot .spectator⟩ ::
      observed audience (op.apply a) ops

def masked (viewer : Option SeatId) (cards : List Card) (a : ProtocolAuthority) : ProtocolAuthority :=
  { a with hand := a.hand.masked viewer cards }

section views
variable {audience : ProjectionAudience} {cards : List Card} {h : MultiwayHand}

/-! ## Views -/

theorem projectionPotTotal_masked {viewer : Option SeatId} :
    (h.masked viewer cards).projectionPotTotal = h.projectionPotTotal := by
  simp only [projectionPotTotal, sumSeats_masked fun _ _ => faceDown_handContribution]
  rfl

/-- The audience and a spectator see of a masked hand what they see of the hand. -/
theorem projectHand_masked (cards : List Card) {watcher : ProjectionAudience}
    (hwatcher : watcher = audience ∨ watcher = .spectator)
    (hrev : h.revealedHands = []) (handId : HandId) :
    (h.masked audience.viewer cards).projectHand handId watcher = h.projectHand handId watcher := by
  have hunseated : (h.masked audience.viewer cards).unseated watcher = h.unseated watcher := by
    cases watcher with
    | player seat => simp only [unseated, occupiedSeats_masked]
    | spectator => rfl
  have hseat : ∀ seat, (h.masked audience.viewer cards).projectSeat watcher seat = h.projectSeat watcher seat := fun seat => by
    have hcontribution : (h.masked audience.viewer cards).contributionFor seat = h.contributionFor seat := by
      simp only [contributionFor, seat_masked, faceDown_streetContribution, faceDown_handContribution]
      rfl
    have hpublic : (h.masked audience.viewer cards).publiclyRevealed seat = false ∧ h.publiclyRevealed seat = false := by
      refine ⟨?_, ?_⟩ <;> simp only [publiclyRevealed]
      · show h.revealedHands.any _ = false
        rw [hrev]; rfl
      · rw [hrev]; rfl
    have hown : watcher.owns seat = true → faceDown audience.viewer seat (h.seat seat) = h.seat seat := fun ho => by
      have he : watcher = .player seat := by simpa [ProjectionAudience.owns] using ho
      rcases hwatcher with rfl | rfl
      · subst he; simp [faceDown, ProjectionAudience.viewer]
      · cases he
    simp only [projectSeat, hcontribution, hpublic.1, hpublic.2, seat_masked, faceDown_stack, faceDown_participation,
      Bool.or_false]
    by_cases ho : watcher.owns seat = true
    · simp only [ho, hown ho]
    · simp only [ho, Bool.false_eq_true, if_false]
  have hlegal : ∀ seat, (h.masked audience.viewer cards).legalActionsFor seat = h.legalActionsFor seat :=
    fun seat => legalActionsFor_masked
  simp only [projectHand, hunseated, occupiedSeats_masked, projectionPotTotal_masked, hlegal,
    show (h.masked audience.viewer cards).projectSeat watcher = h.projectSeat watcher from funext hseat]
  rfl

end views

section calls
variable (viewer : Option SeatId) {cards : List Card} {c : HandConfig} {posted : Nat} {a : ProtocolAuthority}
  {envelope : CommandEnvelope} {server : Bool} {op : AuthorityOp} {ops : List AuthorityOp}

/-! ## Calls -/

theorem applyPayload_masked (hs : Stage c posted a.hand) (payload : CommandPayload)
    (hh : Hides cards a.hand (a.applyPayload payload).2) : (a.masked viewer cards).applyPayload payload =
      ((a.applyPayload payload).1, (a.applyPayload payload).2.masked viewer cards) ∧
        Deals a.hand (a.applyPayload payload).2 := by
  cases payload with
  | act seat action => exact hs.applyCommand_masked hh
  | showdownPreference seat alwaysShow =>
    refine ⟨setAlwaysShow_masked seat alwaysShow, ?_⟩
    show Deals a.hand (a.hand.setAlwaysShow seat alwaysShow).2
    unfold setAlwaysShow
    split
    · exact ⟨rfl, Nat.le_refl _⟩
    split <;> exact ⟨rfl, Nat.le_refl _⟩

theorem execute_masked (hs : Stage c posted a.hand) (hh : Hides cards a.hand (a.execute envelope).2.hand) :
    (a.masked viewer cards).execute envelope =
      ((a.execute envelope).1, (a.execute envelope).2.masked viewer cards) ∧ Deals a.hand (a.execute envelope).2.hand := by
  have hevent : ∀ hand : MultiwayHand, (a.masked viewer cards).acceptedEvent (hand.masked viewer cards) envelope.payload =
      a.acceptedEvent hand envelope.payload := fun hand => by
    cases envelope.payload with
    | act seat action => simp only [acceptedEvent, projectionPotTotal_masked]; rfl
    | showdownPreference seat alwaysShow => rfl
  by_cases hstale : envelope.expectedRevision ≠ a.revision
  · have hrefused : ∀ a' : ProtocolAuthority, a'.revision = a.revision → (a'.execute envelope).2 = a' := fun a' hr => by
      simp only [execute]
      rw [if_pos (by rw [hr]; exact hstale)]
    refine ⟨?_, by rw [hrefused a rfl]; exact ⟨rfl, Nat.le_refl _⟩⟩
    refine Prod.ext ?_ (by rw [hrefused a rfl]; exact hrefused _ rfl)
    simp only [execute]
    rw [if_pos hstale, if_pos (show envelope.expectedRevision ≠ (a.masked viewer cards).revision from hstale)]
    rfl
  · have happly := @applyPayload_masked viewer cards c posted a hs envelope.payload
    simp only [execute] at hh ⊢
    rw [if_neg hstale] at hh ⊢
    rw [if_neg (show ¬ envelope.expectedRevision ≠ (a.masked viewer cards).revision from hstale)]
    cases hp : a.applyPayload envelope.payload with
    | mk result hand =>
      rw [hp] at happly hh
      cases result with
      | ok u =>
        obtain ⟨hm, hd⟩ := happly hh
        rw [hm]
        dsimp only
        rw [hevent]
        exact ⟨rfl, hd⟩
      | error e =>
        obtain ⟨hm, hd⟩ := happly hh
        rw [hm]
        exact ⟨rfl, hd⟩

theorem submitFrom_masked (hs : Stage c posted a.hand) (hh : Hides cards a.hand (a.submitFrom envelope server).2.hand) :
    (a.masked viewer cards).submitFrom envelope server =
      ((a.submitFrom envelope server).1, (a.submitFrom envelope server).2.masked viewer cards) ∧
        Deals a.hand (a.submitFrom envelope server).2.hand := by
  simp only [submitFrom] at hh ⊢
  rw [show (a.masked viewer cards).framingRefusal envelope server = a.framingRefusal envelope server from rfl,
    show (a.masked viewer cards).recorded envelope.commandId = a.recorded envelope.commandId from rfl]
  cases hframe : a.framingRefusal envelope server with
  | some error => exact ⟨rfl, rfl, Nat.le_refl _⟩
  | none =>
    rw [hframe] at hh
    cases hrec : a.recorded envelope.commandId with
    | some recorded =>
      dsimp only
      split <;> exact ⟨rfl, rfl, Nat.le_refl _⟩
    | none =>
      rw [hrec] at hh
      dsimp only at hh ⊢
      rw [show (a.masked viewer cards).recordedCommands = a.recordedCommands from rfl]
      split at hh
      · rename_i hfull
        rw [if_pos hfull, if_pos hfull]
        exact ⟨rfl, rfl, Nat.le_refl _⟩
      · rename_i hroom
        rw [if_neg hroom, if_neg hroom]
        obtain ⟨hm, hd⟩ := execute_masked viewer hs hh
        rw [hm]
        exact ⟨rfl, hd⟩

/-- A call does the same to an authority and to its mask, as long as no card is tabled. -/
theorem apply_masked (hs : Stage c posted a.hand) (hh : Hides cards a.hand (op.apply a).hand) :
    op.answer (a.masked viewer cards) = op.answer a ∧
      op.apply (a.masked viewer cards) = (op.apply a).masked viewer cards ∧ Deals a.hand (op.apply a).hand := by
  cases op with
  | submit envelope server =>
    obtain ⟨hm, hd⟩ := submitFrom_masked viewer hs hh
    refine ⟨?_, ?_, hd⟩
    · simp only [AuthorityOp.answer, hm]
    · simp only [AuthorityOp.apply, hm]
  | advanceShowdown =>
    have hidden : a.hand.revealedHands = [] := by
      refine @Stage.hidden_of_step c a.hand posted .advance hs ?_
      have := hh.hidden
      simp only [AuthorityOp.apply, advanceShowdown] at this
      rw [HandOp.apply]
      split at this <;> rename_i he <;> rw [he] <;> exact this
    have hnone : ∀ b : ProtocolAuthority, b.hand.showdownProgress = none → b.advanceShowdown = (none, b) := fun b hb => by
      simp only [advanceShowdown, advanceShowdown_none hb]
    have hprogress := hs.advance_hidden hidden
    simp only [AuthorityOp.answer, AuthorityOp.apply, hnone a hprogress, hnone (a.masked viewer cards) hprogress]
    exact ⟨trivial, trivial, rfl, Nat.le_refl _⟩

end calls

section runs
variable {audience : ProjectionAudience} {viewer : Option SeatId} {cards : List Card} {c : HandConfig} {posted : Nat}
  {a : ProtocolAuthority} {op : AuthorityOp} {ops : List AuthorityOp}

/-! ## Runs -/

theorem hidden_of_run (hs : Stage c posted a.hand) (hrev : (a.run ops).hand.revealedHands = []) : a.hand.revealedHands = [] := by
  induction ops generalizing a with
  | nil => exact hrev
  | cons op ops ih =>
    have hnext := ih (a := op.apply a) (apply_stage hs op) hrev
    rcases apply_hand op a with he | ⟨call, he⟩
    · rw [← he]; exact hnext
    · rw [he] at hnext; exact hs.hidden_of_step hnext

theorem deals_run (hs : Stage c posted a.hand) (hrev : (a.run ops).hand.revealedHands = []) : Deals a.hand (a.run ops).hand := by
  induction ops generalizing a with
  | nil => exact ⟨rfl, Nat.le_refl _⟩
  | cons op ops ih =>
    have hnext := apply_stage hs op
    have hhidden := hidden_of_run hnext hrev
    have hstep := (apply_masked none hs ⟨rfl, hhidden, fun _ _ _ => rfl⟩).2.2
    have hrest := ih (a := op.apply a) hnext hrev
    exact ⟨hrest.cards.trans hstep.cards, hstep.index.trans hrest.index⟩

theorem snapshot_masked (cards : List Card) {watcher : ProjectionAudience} (hw : watcher = audience ∨ watcher = .spectator)
    (hrev : a.hand.revealedHands = []) :
    (a.masked audience.viewer cards).snapshot watcher = a.snapshot watcher := by
  have hview := projectHand_masked cards hw hrev a.handId
  show ((a.hand.masked audience.viewer cards).projectHand a.handId watcher).map _ = (a.hand.projectHand a.handId watcher).map _
  rw [hview]
  rfl

/-- The audience sees of a masked authority what it sees of the authority. -/
theorem observed_masked (audience : ProjectionAudience) (hs : Stage c posted a.hand) (hh : Hides cards a.hand (a.run ops).hand) :
    (a.masked audience.viewer cards).observed audience ops = a.observed audience ops ∧
      (a.masked audience.viewer cards).run ops = (a.run ops).masked audience.viewer cards := by
  induction ops generalizing a with
  | nil => exact ⟨rfl, rfl⟩
  | cons op ops ih =>
    have hnext := apply_stage hs op
    have hhidden : (op.apply a).hand.revealedHands = [] := hidden_of_run hnext hh.hidden
    have hrest : Deals (op.apply a).hand (a.run (op :: ops)).hand := deals_run hnext hh.hidden
    obtain ⟨hanswer, happly, hdeals⟩ := apply_masked audience.viewer hs
      ⟨hh.length, hhidden, fun i hi hlt => hh.same i hi (Nat.lt_of_lt_of_le hlt hrest.index)⟩
    obtain ⟨hobserved, hrun⟩ := ih (a := op.apply a) hnext ⟨by rw [hdeals.cards]; exact hh.length, hh.hidden,
      fun i hi hlt => by rw [hdeals.cards]; exact hh.same i (Nat.le_trans hdeals.index hi) hlt⟩
    refine ⟨?_, by rw [show (a.masked audience.viewer cards).run (op :: ops) = _ from
      congrArg (·.run ops) happly]; exact hrun⟩
    simp only [observed, hanswer, happly, hobserved, snapshot_masked cards (Or.inl rfl) hhidden,
      snapshot_masked cards (Or.inr rfl) hhidden]
    rfl

/-- Before cards are tabled nothing depends on the hidden ones: two hands of one configuration,
    whose decks give the audience the same cards and the board the same cards so far, answer
    every call alike and look the same to the audience and to a spectator after each. -/
theorem run_noninterferent {deck : Deck} {start start' : MultiwayHand} (hdeck : c.deck.Shuffled) (hdeck' : deck.Shuffled)
    (hb : c.build = .ok start) (hb' : HandConfig.build { c with deck := deck } = .ok start')
    (hcards : ∀ p, audience = .player p → (start.seat p).holeCards = (start'.seat p).holeCards) (paced : Bool)
    (tableId : TableId) (handId : HandId) (ops : List AuthorityOp)
    (hrev : ((new tableId handId { start with pacedShowdown := paced }).run ops).hand.revealedHands = [])
    (hrev' : ((new tableId handId { start' with pacedShowdown := paced }).run ops).hand.revealedHands = [])
    (hboard : ∀ i, start.deck.index ≤ i →
      i < ((new tableId handId { start with pacedShowdown := paced }).run ops).hand.deck.index →
        c.deck.cards[i]? = deck.cards[i]?) :
    let a := new tableId handId { start with pacedShowdown := paced }
    let a' := new tableId handId { start' with pacedShowdown := paced }
    a.observed audience ops = a'.observed audience ops ∧ (a.run ops).revision = (a'.run ops).revision ∧
      (a.run ops).snapshot audience = (a'.run ops).snapshot audience ∧
      (a.run ops).snapshot .spectator = (a'.run ops).snapshot .spectator := by
  intro a a'
  have hs : Stage c _ a.hand := HandStarts.stage ⟨hdeck, start, paced, hb, rfl⟩
  have hs' : Stage { c with deck := deck } _ a'.hand := HandStarts.stage ⟨hdeck', start', paced, hb', rfl⟩
  have hstart : start.revealedHands = [] := hidden_of_run hs hrev
  have hstart' : start'.revealedHands = [] := hidden_of_run hs' hrev'
  obtain ⟨_, _, _, _, _, _, hbuilt⟩ := build_built hb
  obtain ⟨_, _, _, _, _, _, hbuilt'⟩ := build_built hb'
  have hdealt : start.deck.cards = c.deck.cards := Built.cards_kept hdeck hbuilt hstart
  have hdealt' : start'.deck.cards = deck.cards := Built.cards_kept hdeck' hbuilt' hstart'
  have hkept : a.hand.deck.cards = c.deck.cards := hdealt
  have hkept' : a'.hand.deck.cards = deck.cards := hdealt'
  -- both runs are masked over the second deck, and their masks start out equal
  have hmask : a.masked audience.viewer deck.cards = a'.masked audience.viewer deck.cards := by
    have hsame : start.masked audience.viewer deck.cards = start'.masked audience.viewer deck.cards :=
      masked_of_cards (build_masked hdeck hdeck' hb hb' hstart hstart') fun p hp => hcards p (by
        cases audience with
        | player seat => rw [Option.some.inj hp]
        | spectator => cases hp)
    exact congrArg (fun k : MultiwayHand => new tableId handId { k with pacedShowdown := paced }) hsame
  have hh : Hides deck.cards a.hand (a.run ops).hand :=
    ⟨by rw [hkept, hdeck.length, hdeck'.length], hrev, fun i hi hlt => by rw [hkept]; exact (hboard i hi hlt).symm⟩
  have hh' : Hides deck.cards a'.hand (a'.run ops).hand :=
    ⟨by rw [hkept'], hrev', fun i _ _ => by rw [hkept']⟩
  obtain ⟨hobserved, hrun⟩ := observed_masked audience hs hh
  obtain ⟨hobserved', hrun'⟩ := observed_masked audience hs' hh'
  have hend : (a.run ops).masked audience.viewer deck.cards = (a'.run ops).masked audience.viewer deck.cards := by
    rw [← hrun, ← hrun', hmask]
  refine ⟨by rw [← hobserved, ← hobserved', hmask], congrArg (·.revision) hend, ?_, ?_⟩
  · rw [← snapshot_masked deck.cards (Or.inl rfl) hrev, ← snapshot_masked deck.cards (Or.inl rfl) hrev', hend]
  · have hpublic : ∀ b : ProtocolAuthority, b.hand.revealedHands = [] →
        (b.masked audience.viewer deck.cards).snapshot .spectator = b.snapshot .spectator :=
      fun b hb => snapshot_masked deck.cards (Or.inr rfl) hb
    rw [← hpublic _ hrev, ← hpublic _ hrev', hend]

/-- The unshuffled deck with its first two cards, dealt to seats 2 and 5, exchanged. -/
def exchanged : Deck :=
  match Deck.new.cards with
  | first :: second :: rest => ⟨second :: first :: rest, 0⟩
  | cards => ⟨cards, 0⟩

theorem exchanged_shuffled : exchanged.Shuffled := ⟨List.Perm.swap .., rfl⟩

/-- Seat 0 opens. -/
def opened : List AuthorityOp := [.submit (.actForHand "raise-1" ⟨1⟩ ⟨1⟩ 0 0 (.raise 10)) false]

theorem run_noninterferent_three : ∃ start start' : MultiwayHand, start ≠ start' ∧ threeHanded.build = .ok start ∧
    HandConfig.build { threeHanded with deck := exchanged } = .ok start' ∧
    (new ⟨1⟩ ⟨1⟩ { start with pacedShowdown := true }).observed (.player 0) opened =
      (new ⟨1⟩ ⟨1⟩ { start' with pacedShowdown := true }).observed (.player 0) opened := by
  have hrun : (threeHanded.build.toOption.any fun start =>
      (HandConfig.build { threeHanded with deck := exchanged }).toOption.any fun start' =>
        decide (start ≠ start' ∧ (start.seat 0).holeCards = (start'.seat 0).holeCards ∧
          ((new ⟨1⟩ ⟨1⟩ { start with pacedShowdown := true }).run opened).hand.revealedHands = [] ∧
          ((new ⟨1⟩ ⟨1⟩ { start' with pacedShowdown := true }).run opened).hand.revealedHands = [] ∧
          ((new ⟨1⟩ ⟨1⟩ { start with pacedShowdown := true }).run opened).hand.deck.index = start.deck.index)) = true := by
    decide +kernel
  cases hb : threeHanded.build with
  | error error =>
    rw [hb] at hrun
    cases hrun
  | ok start =>
    cases hb' : HandConfig.build { threeHanded with deck := exchanged } with
    | error error =>
      rw [hb, hb'] at hrun
      cases hrun
    | ok start' =>
    rw [hb, hb'] at hrun
    obtain ⟨hne, hcards, hrev, hrev', hindex⟩ := of_decide_eq_true hrun
    refine ⟨start, start', hne, rfl, rfl, (@run_noninterferent (.player 0) threeHanded exchanged start start' ⟨.refl _, rfl⟩
      exchanged_shuffled hb hb' (fun p hp => ?_) true ⟨1⟩ ⟨1⟩ opened hrev hrev' fun i hi hlt => ?_).1⟩
    · cases hp; exact hcards
    · rw [hindex] at hlt; omega

end runs

end ProtocolAuthority

end OpenFelt
