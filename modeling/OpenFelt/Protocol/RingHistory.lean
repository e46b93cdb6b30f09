/-
  OpenFelt.Protocol.RingHistory — the history kept of a finished hand
  (`src/ring_history.rs`).

  A history is read off the accepted events and the terminal spectator view; the store
  keeps the newest `maxRetainedHistories` and running totals. The document a store is
  saved in is left out.
-/

import OpenFelt.Protocol.Authority

namespace OpenFelt

def ringHistoryVersion : Nat := 1

def maxHistoryActions : Nat := 256

def maxRetainedHistories : Nat := 512

def u64Max : Nat := 2 ^ 64 - 1

/-- `u64::saturating_add`. -/
def saturatingAdd64 (a b : Nat) : Nat := min (a + b) u64Max

structure SafeRingAction where
  revision : Nat
  seat : SeatId
  phase : MultiwayPhase
  action : Action
  potAfter : Nat
  deriving DecidableEq, Repr

structure PublicCards where
  seat : SeatId
  cards : List Card
  deriving DecidableEq, Repr

structure SafeRingHandHistory where
  version : Nat
  tableId : TableId
  handId : HandId
  button : SeatId
  board : List Card
  actions : List SafeRingAction
  publiclyRevealed : List PublicCards
  awards : List PotAward
  finalStacks : List (SeatId × Nat)
  deriving DecidableEq, Repr

inductive HistoryError where
  | playerProjection
  | handNotTerminal
  | wrongTableOrHand
  | nonMonotonicRevision
  | tooManyActions
  deriving DecidableEq, Repr

/-- The action an event records, if it is one. -/
def EventEnvelope.ringAction (event : EventEnvelope) : Option SafeRingAction :=
  match event.event with
  | .showdownAdvanced | .showdownPreferenceAccepted _ => none
  | .actionAccepted seat action phase _ potTotal => some ⟨event.revision, seat, phase, action, potTotal⟩

namespace SafeRingHandHistory

/-- The loop over the events; `previous` is the revision before them. -/
def readActions (terminal : SnapshotEnvelope) : Nat → List EventEnvelope → Except HistoryError (List SafeRingAction)
  | _, [] => .ok []
  | previous, event :: rest =>
    if event.tableId ≠ terminal.tableId ∨ event.handId ≠ terminal.handId then .error .wrongTableOrHand
    else if event.revision ≤ previous ∨ terminal.revision < event.revision then .error .nonMonotonicRevision
    else (readActions terminal event.revision rest).map (event.ringAction.toList ++ ·)

def fromPublicTerminal (terminal : SnapshotEnvelope) (acceptedEvents : List EventEnvelope) :
    Except HistoryError SafeRingHandHistory :=
  if terminal.snapshot.audience ≠ .spectator then .error .playerProjection
  else if !terminal.snapshot.phase.terminal then .error .handNotTerminal
  else if maxHistoryActions < acceptedEvents.length then .error .tooManyActions
  else
    (readActions terminal 0 acceptedEvents).map fun actions => {
      version := ringHistoryVersion
      tableId := terminal.tableId
      handId := terminal.handId
      button := terminal.snapshot.button
      board := terminal.snapshot.board
      actions := actions
      publiclyRevealed := terminal.snapshot.seats.filterMap fun seat => seat.holeCards.map (⟨seat.seat, ·⟩)
      awards := terminal.snapshot.awards
      finalStacks := terminal.snapshot.seats.map fun seat => (seat.seat, seat.stack) }

end SafeRingHandHistory

structure RingStatistics where
  hands : Nat
  showdowns : Nat
  acceptedActions : Nat
  potsAwarded : Nat
  chipsAwarded : Nat
  deriving DecidableEq, Repr, Inhabited

structure RingHistoryStore where
  histories : List SafeRingHandHistory
  statistics : RingStatistics
  deriving DecidableEq, Repr

/-- `RingHistoryStore::default()`. -/
def RingHistoryStore.empty : RingHistoryStore := ⟨[], ⟨0, 0, 0, 0, 0⟩⟩

def RingHistoryStore.record (store : RingHistoryStore) (history : SafeRingHandHistory) : RingHistoryStore where
  histories :=
    (if store.histories.length = maxRetainedHistories then store.histories.tail else store.histories) ++ [history]
  statistics := {
    hands := saturatingAdd64 store.statistics.hands 1
    showdowns := saturatingAdd64 store.statistics.showdowns (if history.publiclyRevealed.isEmpty then 0 else 1)
    acceptedActions := saturatingAdd64 store.statistics.acceptedActions history.actions.length
    potsAwarded := saturatingAdd64 store.statistics.potsAwarded history.awards.length
    chipsAwarded := saturatingAdd64 store.statistics.chipsAwarded (history.awards.map (·.amount)).sum }

/-! ## What a log records -/

/-- The events of one hand, numbered without a gap. -/
def LoggedFrom (tableId : TableId) (handId : HandId) (revision : Nat) (events : List EventEnvelope) : Prop :=
  (∀ event ∈ events, event.tableId = tableId ∧ event.handId = handId) ∧
    events.map (·.revision) = (List.range revision).map (· + 1)

section log
variable {tableId : TableId} {handId : HandId} {n : Nat} {events : List EventEnvelope} {terminal : SnapshotEnvelope}

theorem loggedFrom_nil (tableId : TableId) (handId : HandId) : LoggedFrom tableId handId 0 [] :=
  ⟨fun _ he => (nomatch he), rfl⟩

theorem LoggedFrom.snoc {event : EventEnvelope} (hl : LoggedFrom tableId handId n events) (htable : event.tableId = tableId)
    (hhand : event.handId = handId) (hrev : event.revision = n + 1) : LoggedFrom tableId handId (n + 1) (events ++ [event]) := by
  refine ⟨fun e he => ?_, ?_⟩
  · rcases List.mem_append.mp he with he | he
    · exact hl.1 e he
    · rw [List.mem_singleton.mp he]
      exact ⟨htable, hhand⟩
  · rw [List.map_append, hl.2, List.range_succ, List.map_append, List.map_singleton, List.map_singleton, hrev]

theorem LoggedFrom.length (hl : LoggedFrom tableId handId n events) : events.length = n := by
  have := congrArg List.length hl.2
  simpa using this

/-- A log whose revisions rise within the hand is read to its end. -/
theorem readActions_ok {previous : Nat}
    (hscope : ∀ event ∈ events, event.tableId = terminal.tableId ∧ event.handId = terminal.handId)
    (hrise : (previous :: events.map (·.revision)).Pairwise (· < ·))
    (hlast : ∀ event ∈ events, event.revision ≤ terminal.revision) :
    SafeRingHandHistory.readActions terminal previous events = .ok (events.filterMap (·.ringAction)) := by
  induction events generalizing previous with
  | nil => rfl
  | cons event rest ih =>
    rw [List.map_cons] at hrise
    obtain ⟨hfirst, hrest⟩ := List.pairwise_cons.mp hrise
    obtain ⟨htable, hhand⟩ := hscope event List.mem_cons_self
    have hbefore : previous < event.revision := hfirst _ List.mem_cons_self
    have hwithin := hlast event List.mem_cons_self
    unfold SafeRingHandHistory.readActions
    rw [if_neg (by simp [htable, hhand]), if_neg (by omega),
      ih (fun e he => hscope e (List.mem_cons_of_mem _ he)) hrest fun e he => hlast e (List.mem_cons_of_mem _ he)]
    cases ha : event.ringAction with
    | none => rw [List.filterMap_cons_none ha]; rfl
    | some action => rw [List.filterMap_cons_some ha]; rfl

theorem LoggedFrom.readActions (hl : LoggedFrom terminal.tableId terminal.handId terminal.revision events) :
    SafeRingHandHistory.readActions terminal 0 events = .ok (events.filterMap (·.ringAction)) := by
  refine readActions_ok hl.1 ?_ fun event he => ?_
  · rw [hl.2]
    have hrange : (0 :: (List.range terminal.revision).map (· + 1)) = List.range (terminal.revision + 1) :=
      List.range_succ_eq_map.symm
    rw [hrange]
    exact List.pairwise_lt_range
  · have hmem : event.revision ∈ (List.range terminal.revision).map (· + 1) := hl.2 ▸ List.mem_map_of_mem he
    obtain ⟨i, hi, hrev⟩ := List.mem_map.mp hmem
    have := List.mem_range.mp hi
    omega

/-- A finished hand's log is a history exactly when it is short enough. -/
theorem LoggedFrom.history (hl : LoggedFrom terminal.tableId terminal.handId terminal.revision events)
    (haudience : terminal.snapshot.audience = .spectator) (hphase : terminal.snapshot.phase.terminal = true) :
    SafeRingHandHistory.fromPublicTerminal terminal events =
      if maxHistoryActions < events.length then .error .tooManyActions
      else .ok {
        version := ringHistoryVersion
        tableId := terminal.tableId
        handId := terminal.handId
        button := terminal.snapshot.button
        board := terminal.snapshot.board
        actions := events.filterMap (·.ringAction)
        publiclyRevealed := terminal.snapshot.seats.filterMap fun seat => seat.holeCards.map (⟨seat.seat, ·⟩)
        awards := terminal.snapshot.awards
        finalStacks := terminal.snapshot.seats.map fun seat => (seat.seat, seat.stack) } := by
  unfold SafeRingHandHistory.fromPublicTerminal
  rw [if_neg (not_not_intro haudience), hphase, Bool.not_true, if_neg Bool.false_ne_true, hl.readActions]
  rfl

end log

end OpenFelt
