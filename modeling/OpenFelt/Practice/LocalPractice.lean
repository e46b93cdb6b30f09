/-
  OpenFelt.Practice.LocalPractice — the offline practice table (`src/local_practice.rs`).

  Translation. A hand is an authorized table of its own, whose local player is one of its
  sessions and sees it through a `NetworkApp`. Between two rollovers the methods of
  `LocalPractice` and the actor's clock are sequences of `HandStep`s: something is asked
  of the runtime, or the app is told a message or prepares a command. Arguments are the
  deck of each shuffle (by the seed of a review session), the random number of an app and
  what its view logs. The threads of a runtime start, and a hand-off to one is answered.

  Proved here: dealt the same table's chips, a hand starts whatever the deck
  (`fromStacks_deals`), and what holds of it then holds at every later step
  (`Holds.step`).
-/

import OpenFelt.Client.Overtaken
import OpenFelt.Protocol.RingHistory
import OpenFelt.Registry.Starts

namespace OpenFelt

open MultiwayHand RuntimeState

def localTableId : TableId := ⟨1⟩

inductive PracticeError where
  | message (text : String)
  | config (error : MultiwayConfigError)
  | table (error : AuthorizedTableError)
  | client (error : ProjectionClientError)
  | history (error : HistoryError)
  deriving DecidableEq, Repr

/-- What a shuffle gives: of the seed of a review session, or of none. -/
abbrev PracticeShuffle := Option Nat → {deck : Deck // deck.Shuffled}

/-! ## A hand -/

structure LocalPractice where
  runtime : RuntimeState
  localSession : GuestSessionId
  app : NetworkApp
  tableSize : TableSize
  handId : HandId
  button : SeatId
  openingStacks : List (SeatId × Nat)

/-- `session_for`. -/
def practiceSessionFor (seat : SeatId) : Except AuthorizedTableError GuestSessionId :=
  GuestSessionId.new ("local-practice-seat-" ++ toString seat.val)

/-- The seats with their sessions. -/
def practiceSessions (seatStacks : List (SeatId × Nat)) : Except AuthorizedTableError (List (SeatId × GuestSessionId)) :=
  seatStacks.mapM fun entry => (practiceSessionFor entry.1).map fun session => (entry.1, session)

def practiceConfig (tableSize : TableSize) (button : SeatId) (seatStacks : List (SeatId × Nat)) (deck : Deck) : HandConfig where
  tableSize := tableSize
  button := button
  seatStacks := seatStacks
  forcedPosts := []
  blindValues := .default
  deck := deck

/-- Only a table that nobody reviews is paced. -/
def practiceAuthority (handId : HandId) (hand : MultiwayHand) (reviewSeed : Option Nat) : ProtocolAuthority :=
  if reviewSeed.isSome then .new localTableId handId hand else .newPaced localTableId handId hand

namespace LocalPractice

def fromStacks (tableSize : TableSize) (button : SeatId) (handId : HandId) (seatStacks : List (SeatId × Nat))
    (reviewSeed : Option Nat)
    (shuffle : PracticeShuffle) (nonce : Nat) : Except PracticeError LocalPractice :=
  match (practiceConfig tableSize button seatStacks (shuffle reviewSeed).val).build with
  | .error error => .error (.config error)
  | .ok hand =>
    match practiceSessions seatStacks with
    | .error error => .error (.table error)
    | .ok sessions =>
      match bindSeats localTableId handId stayConnected sessions (.spawn (practiceAuthority handId hand reviewSeed)) with
      | .error error => .error (.table error)
      | .ok runtime =>
        match practiceSessionFor 0 with
        | .error error => .error (.table error)
        | .ok localSession =>
          match runtime.subscribe localSession with
          | (.error error, _) => .error (.table error)
          | (.ok (), runtime) =>
            match runtime.channel localSession with
            | [] => .error (.message "receiving on a closed channel")
            | initial :: _ =>
              match ProjectionClient.bootstrapFromUpdate initial with
              | .error error => .error (.client error)
              | .ok client =>
                .ok {
                  runtime := (RuntimeOp.receive localSession).apply runtime
                  localSession := localSession
                  app := .new client nonce
                  tableSize := tableSize
                  handId := handId
                  button := button
                  openingStacks := seatStacks }

variable (p : LocalPractice)

def openingStack (seat : SeatId) : Nat := (p.openingStacks.lookup seat).getD 0

/-- `app.is_terminal`. -/
def isTerminal : Bool := p.app.client.snapshot.snapshot.phase.terminal

def safeHistory : Except PracticeError SafeRingHandHistory :=
  if !p.isTerminal then .error (.message "practice hand must be terminal before history capture")
  else
    match p.runtime.safeHistoryMaterial with
    | .error error => .error (.table error)
    | .ok (terminal, acceptedEvents) => (SafeRingHandHistory.fromPublicTerminal terminal acceptedEvents).mapError .history

end LocalPractice

/-- One thing that happens to a hand. -/
inductive HandStep where
  | request (op : RuntimeOp)
  | message (sent : ServerWireMessage)
  | act (action : Action)
  | prefer (alwaysShow : Bool)
  | disconnected

def HandStep.apply (step : HandStep) (p : LocalPractice) : LocalPractice :=
  match step with
  | request op => { p with runtime := op.apply p.runtime }
  | message sent => { p with app := (p.app.applyMessage sent).2 }
  | act action => { p with app := (p.app.prepareAction action).2 }
  | prefer alwaysShow => { p with app := (p.app.prepareShowdownPreference alwaysShow).2 }
  | disconnected => { p with app := p.app.markDisconnected }

/-! ## The session -/

structure PracticeHandSummary where
  handNumber : Nat
  openingStack : Nat
  finalStack : Nat
  net : Int
  sessionNet : Int
  canContinue : Bool
  history : SafeRingHandHistory
  deriving DecidableEq, Repr

structure PracticeSession where
  tableSize : TableSize
  sessionOpeningStack : Nat
  current : Option LocalPractice
  histories : List SafeRingHandHistory
  tableConsole : List String
  reviewSeed : Option Nat

/-- A number with its sign. -/
def signed (n : Int) : String := if 0 ≤ n then "+" ++ toString n else toString n

def maxConsoleLines : Nat := 200

namespace PracticeSession

/-- Every seat of the table with one stack, and the local player on the button. -/
def start (tableSize : TableSize) (startingStack : Nat) (reviewSeed : Option Nat) (shuffle : PracticeShuffle) (nonce : Nat) :
    Except PracticeError PracticeSession :=
  match LocalPractice.fromStacks tableSize 0 ⟨1⟩ (tableSize.seats.map fun seat => (seat, startingStack)) reviewSeed
    shuffle nonce with
  | .error error => .error error
  | .ok current => .ok ⟨tableSize, startingStack, some current, [], [], reviewSeed⟩

def new (tableSize : TableSize) (startingStack : Nat) (shuffle : PracticeShuffle) (nonce : Nat) :
    Except PracticeError PracticeSession :=
  start tableSize startingStack none shuffle nonce

def nineHandedSeededForReview (startingStack seed : Nat) (shuffle : PracticeShuffle) (nonce : Nat) :
    Except PracticeError PracticeSession :=
  start .nine startingStack (some seed) shuffle nonce

variable (actionLog : NetworkApp → List String) (s : PracticeSession)

/-- The console with what the hand logged and what the dealer says of it. -/
def consoleAfter (completed : LocalPractice) (summary : PracticeHandSummary) : List String :=
  let outcome :=
    if 0 < summary.net then "win " ++ toString summary.net
    else if summary.net < 0 then "lose " ++ toString (-summary.net)
    else "break even"
  let lines := s.tableConsole ++ actionLog completed.app ++
    ["Dealer · Hand " ++ toString summary.handNumber ++ " complete · You " ++ outcome ++ " · Stack " ++
      toString summary.finalStack ++
        " · Session " ++ signed summary.sessionNet,
      if summary.canContinue then "Dealer · Next hand starting automatically" else "Dealer · Practice session complete"]
  lines.drop (lines.length - maxConsoleLines)

/-- The seats a hand has left with chips. -/
def occupied (history : SafeRingHandHistory) : List (SeatId × Nat) := history.finalStacks.filter fun entry => 0 < entry.2

def nextButton (history : SafeRingHandHistory) : Option SeatId :=
  s.tableSize.nextEligible history.button fun candidate => (occupied history).any fun entry => entry.1 = candidate

def summarize (completed : LocalPractice) (history : SafeRingHandHistory) : PracticeHandSummary :=
  let openingStack := completed.openingStack 0
  let finalStack := (history.finalStacks.lookup 0).getD 0
  { handNumber := history.handId.id
    openingStack := openingStack
    finalStack := finalStack
    net := (finalStack : Int) - openingStack
    sessionNet := (finalStack : Int) - s.sessionOpeningStack
    canContinue := 0 < finalStack && 2 ≤ (occupied history).length && (s.nextButton history).isSome
    history := history }

def completeHand (shuffle : PracticeShuffle) (nonce : Nat) : Except PracticeError PracticeHandSummary × PracticeSession :=
  match s.current with
  | none => (.error (.message "practice session has no active hand"), s)
  | some completed =>
    -- the hand is taken out of the session before its history is asked for
    let taken := { s with current := none }
    match completed.safeHistory with
    | .error error => (.error error, taken)
    | .ok history =>
      let summary := s.summarize completed history
      let recorded := { taken with
        tableConsole := s.consoleAfter actionLog completed summary
        histories := s.histories ++ [history] }
      match (if summary.canContinue then s.nextButton history else none) with
      | none => (.ok summary, recorded)
      | some button =>
        let nextHandId : HandId := ⟨saturatingAdd64 history.handId.id 1⟩
        let reviewSeed := s.reviewSeed.map fun seed => saturatingAdd64 seed nextHandId.id
        match LocalPractice.fromStacks s.tableSize button nextHandId (occupied history) reviewSeed shuffle nonce with
        | .error error => (.error error, recorded)
        | .ok next => (.ok summary, { recorded with current := some next })

end PracticeSession

/-! ## Runs -/

inductive PracticeOp where
  | hand (step : HandStep)
  | complete (shuffle : PracticeShuffle) (nonce : Nat)

namespace PracticeSession

variable (actionLog : NetworkApp → List String)

def step (s : PracticeSession) : PracticeOp → PracticeSession
  | .hand step => { s with current := s.current.map step.apply }
  | .complete shuffle nonce => (s.completeHand actionLog shuffle nonce).2

def run (s : PracticeSession) (ops : List PracticeOp) : PracticeSession := ops.foldl (step actionLog) s

/-- The summaries of the hands completed in a run. -/
def summaries (s : PracticeSession) : List PracticeOp → List PracticeHandSummary
  | [] => []
  | op :: ops =>
    let summary : Option PracticeHandSummary :=
      match op with
      | .hand _ => none
      | .complete shuffle nonce => (s.completeHand actionLog shuffle nonce).1.toOption
    summary.toList ++ summaries (s.step actionLog op) ops

end PracticeSession

/-! ## What holds of a hand -/

/-- The events accepted are the hand's, one a revision. -/
def RuntimeState.Logs (s : RuntimeState) : Prop := LoggedFrom s.table.tableId s.table.handId s.table.revision s.acceptedEvents

section logs
variable {c : HandConfig} {posted : Nat} {s s' : RuntimeState}

theorem RuntimeState.Logs.same (hl : s.Logs) (htable : s'.table = s.table)
    (hevents : s'.acceptedEvents = s.acceptedEvents) : s'.Logs := by
  rw [Logs, htable, hevents]
  exact hl

theorem RuntimeState.Logs.rearmed (hl : s.Logs) : s.rearmed.Logs := by
  rcases rearmed_cases s with ⟨_, he⟩ | ⟨_, _, _, _, he⟩ <;> rw [he] <;> exact hl

theorem RuntimeState.Core.logs (hc : Core s s') (hl : s.Logs) : s'.Logs := by
  have haccepted : ∀ command, Logs { s with
      table := s.table.accepting command
      acceptedEvents := s.acceptedEvents ++ [s.table.eventOf command] } := fun _ => LoggedFrom.snoc hl rfl rfl rfl
  cases hc with
  | same => exact hl
  | bound _ _ _ _ _ => exact hl.same rfl rfl
  | refused _ _ _ _ _ => exact hl
  | preferred command _ _ _ _ _ => exact haccepted command
  | acted command _ _ _ _ _ => exact (haccepted command).rearmed
  | timedOut _ command _ _ _ _ _ _ => exact (haccepted command).rearmed
  | advanced event table hadvance =>
    refine Logs.rearmed ?_
    unfold ProtocolAuthority.advanceShowdown at hadvance
    split at hadvance
    · cases hadvance
    · cases hadvance
      exact LoggedFrom.snoc hl rfl rfl rfl

theorem RuntimeState.Moves.logs (hm : Moves s s') (hl : s.Logs) : s'.Logs := by
  obtain ⟨s₁, s₂, h1, h2, h3⟩ := hm
  exact (h2.logs (hl.same h1.table h1.events)).same h3.table h3.events

end logs

namespace LocalPractice

/-- The hand is one dealt by `c`, whatever has happened to it since. -/
structure Holds (c : HandConfig) (posted : Nat) (p : LocalPractice) : Prop where
  serves : Serves c posted p.runtime
  logs : p.runtime.Logs
  handId : p.runtime.handId = p.handId
  tableSize : c.tableSize = p.tableSize
  button : c.button = p.button
  seatStacks : c.seatStacks = p.openingStacks
  buttonSeated : (c.seatStacks.lookup c.button).isSome = true
  backed : c.Backed
  nodup : (c.seatStacks.map (·.1)).Nodup

section holds
variable {c : HandConfig} {posted : Nat} {p : LocalPractice}

theorem Holds.step (hp : p.Holds c posted) (step : HandStep) : (step.apply p).Holds c posted := by
  obtain ⟨hs, hl, hid, hsize, hbutton, hstacks, hseated, hbacked, hnodup⟩ := hp
  cases step with
  | request op =>
    have hm := hs.apply op
    exact ⟨hm.serves hs, hm.logs hl, hm.handId.trans hid, hsize, hbutton, hstacks, hseated, hbacked, hnodup⟩
  | message sent => exact ⟨hs, hl, hid, hsize, hbutton, hstacks, hseated, hbacked, hnodup⟩
  | act action => exact ⟨hs, hl, hid, hsize, hbutton, hstacks, hseated, hbacked, hnodup⟩
  | prefer alwaysShow => exact ⟨hs, hl, hid, hsize, hbutton, hstacks, hseated, hbacked, hnodup⟩
  | disconnected => exact ⟨hs, hl, hid, hsize, hbutton, hstacks, hseated, hbacked, hnodup⟩

end holds

/-! ## A hand starts -/

section starts
variable {c : HandConfig} {posted : Nat} {s s' : RuntimeState} {tableSize : TableSize} {button : SeatId} {handId : HandId}
  {seatStacks : List (SeatId × Nat)} {reviewSeed : Option Nat} {hand : MultiwayHand} {deck : Deck}
  {entries : List (SeatId × GuestSessionId)} {shuffle : PracticeShuffle}

/-- The session of a seat. -/
def practiceSession (seat : SeatId) : GuestSessionId := ⟨"local-practice-seat-" ++ toString seat.val⟩

theorem practiceSessionFor_ok (seat : SeatId) : practiceSessionFor seat = .ok (practiceSession seat) := by
  revert seat
  decide +kernel

theorem practiceSession_injective : Function.Injective practiceSession := by
  intro seat other he
  have hname := congrArg GuestSessionId.value he
  exact Fin.ext (numbered_injective "local-practice-seat-" hname)

/-- Each seat with its session. -/
def practiceEntries (seatStacks : List (SeatId × Nat)) : List (SeatId × GuestSessionId) :=
  seatStacks.map fun entry => (entry.1, practiceSession entry.1)

theorem practiceSessions_ok (seatStacks : List (SeatId × Nat)) :
    practiceSessions seatStacks = .ok (practiceEntries seatStacks) := by
  have heach : ∀ entry : SeatId × Nat, ((practiceSessionFor entry.1).map fun session => (entry.1, session)) =
      pure (entry.1, practiceSession entry.1) := by
    intro entry
    rw [practiceSessionFor_ok]
    rfl
  unfold practiceSessions
  simp only [heach, List.mapM_pure]
  rfl

/-- What every request keeps, the binding of the seats does. -/
theorem bindSeats_keeps {P : RuntimeState → Prop} (hkeeps : ∀ s op, P s → P (RuntimeOp.apply op s)) {tableId : TableId}
    (h : bindSeats tableId handId stayConnected entries s = .ok s') (hs : P s) : P s' := by
  induction entries generalizing s with
  | nil =>
    cases h
    exact hs
  | cons entry rest ih =>
    unfold bindSeats at h
    have hbound := hkeeps s (.bind entry.2 tableId handId (.player entry.1)) hs
    rw [RuntimeOp.apply] at hbound
    rcases hb : s.bind entry.2 tableId handId (.player entry.1) with ⟨result, next⟩
    rw [hb] at h hbound
    cases result with
    | error error => cases h
    | ok u => exact ih h hbound

theorem practiceAuthority_starts (hbuild : (practiceConfig tableSize button seatStacks deck).build = .ok hand)
    (hdeck : deck.Shuffled) :
    ∃ h, practiceAuthority handId hand reviewSeed = .new localTableId handId h ∧
      HandStarts (practiceConfig tableSize button seatStacks deck) h := by
  unfold practiceAuthority
  split
  · exact ⟨hand, rfl, hdeck, hand, hand.pacedShowdown, hbuild, rfl⟩
  · exact ⟨hand.enablePacedShowdown, rfl, paced_starts hdeck hbuild⟩

theorem spawn_fresh (table : ProtocolAuthority) : (RuntimeState.spawn table).subscribers = .empty := by
  unfold RuntimeState.spawn
  dsimp only
  rw [rescheduleDeadline_eq]
  rcases rearmed_cases ⟨table, table.tableId, table.handId, .empty, .empty, 0, none, 0, 0, [], none⟩ with
    ⟨_, he⟩ | ⟨_, _, _, _, he⟩ <;> rw [he]

/-- The local player's session subscribes and its client starts. -/
theorem subscribe_bootstraps {session : GuestSessionId} {seat : SeatId}
    (hf : s.sessions.find? session = some ⟨.player seat, true⟩)
    (hfresh : s.subscribers = .empty) (hin : seat ∈ s.table.hand.occupiedSeats) : ∃ subscribed initial client,
    s.subscribe session = (.ok (), subscribed) ∧ subscribed.channel session = [initial] ∧
      ProjectionClient.bootstrapFromUpdate initial = .ok client ∧
        subscribed = { s with subscribers := subscribed.subscribers } := by
  obtain ⟨view, hview, _⟩ := @view_ok s (.player seat) (fun q hq => by cases hq; exact hin)
  have hbinding : s.connectedBinding session = .ok ⟨.player seat, true⟩ := by
    unfold connectedBinding
    rw [hf]
    rfl
  have hnone : s.subscribers.contains session = false := by rw [hfresh]; rfl
  obtain ⟨subscribed, hsubscribe⟩ : ∃ subscribed, s.subscribe session = (.ok (), subscribed) := by
    unfold RuntimeState.subscribe
    rw [hbinding, hnone]
    dsimp only [SessionRole.audience]
    rw [if_neg Bool.false_ne_true, hview]
    exact ⟨_, rfl⟩
  obtain ⟨binding, snapshot, _, hshown, rfl⟩ := subscribe_ok hsubscribe
  obtain ⟨client, hclient⟩ : ∃ client, ProjectionClient.bootstrapFromUpdate
      ⟨s.streamSequence, .initial, none, snapshot, s.deadline⟩ = .ok client := by
    unfold ProjectionClient.bootstrapFromUpdate ProjectionClient.bootstrap validateVersion
    rw [if_neg (not_not_intro (view_shown hshown).version)]
    exact ⟨_, rfl⟩
  refine ⟨_, _, client, hsubscribe, ?_, hclient, rfl⟩
  rw [channel, OrdMap.find_insert_self]
  rfl

/-- A hand dealt at the table, and who it is dealt to. -/
structure Deals (tableSize : TableSize) (button : SeatId) (handId : HandId) (seatStacks : List (SeatId × Nat))
    (p : LocalPractice) : Prop where
  tableSize : p.tableSize = tableSize
  button : p.button = button
  handId : p.handId = handId
  openingStacks : p.openingStacks = seatStacks
  /-- The runtime's hand is a new one of these stacks and this button. -/
  dealt : ∃ c posted, HandStarts c p.runtime.table.hand ∧ p.Holds c posted
  events : p.runtime.acceptedEvents = []

/-! Every seat of the stacks is bound to its session, and the local one is among them. -/

section bound
variable {h : MultiwayHand} (hnodup : (seatStacks.map (·.1)).Nodup)

include hnodup

theorem nodup_practiceSeats : ((practiceEntries seatStacks).map (·.1)).Nodup := by
  rw [practiceEntries, List.map_map]
  exact hnodup

theorem nodup_practiceSessions : ((practiceEntries seatStacks).map (·.2)).Nodup := by
  have hmap : (practiceEntries seatStacks).map (·.2) = (seatStacks.map (·.1)).map practiceSession := by
    rw [practiceEntries, List.map_map, List.map_map]
    rfl
  rw [hmap]
  exact hnodup.map practiceSession_injective

theorem find_practiceSession (hlocal : (0 : SeatId) ∈ seatStacks.map (·.1)) :
    (s.withPlayers (practiceEntries seatStacks)).sessions.find? (practiceSession 0) = some ⟨.player 0, true⟩ := by
  rw [find_withPlayers (nodup_practiceSessions hnodup)]
  cases hfind : (practiceEntries seatStacks).find? fun e => e.2 = practiceSession 0 with
  | none =>
    obtain ⟨stack, hstack, hzero⟩ := List.mem_map.mp hlocal
    have hmem : (stack.1, practiceSession stack.1) ∈ practiceEntries seatStacks :=
      List.mem_map_of_mem (f := fun entry => (entry.1, practiceSession entry.1)) hstack
    have hne := List.find?_eq_none.mp hfind _ hmem
    simp [hzero] at hne
  | some e =>
    have hsession := List.find?_some hfind
    obtain ⟨stack, _, rfl⟩ := List.mem_map.mp (List.mem_of_find?_eq_some hfind)
    have hzero : stack.1 = 0 := practiceSession_injective (of_decide_eq_true hsession)
    dsimp only
    rw [hzero]

theorem bindSeats_practice (hseated : ∀ entry ∈ seatStacks, entry.1 ∈ h.occupiedSeats) :
    bindSeats localTableId handId stayConnected (practiceEntries seatStacks) (.spawn (.new localTableId handId h)) =
      .ok ((RuntimeState.spawn (.new localTableId handId h)).withPlayers (practiceEntries seatStacks)) := by
  have hids := spawn_ids (.new localTableId handId h)
  have hbindable : AllBindable (.spawn (.new localTableId handId h)) (practiceEntries seatStacks) := by
    refine ⟨fun entry hentry => ⟨by rw [hids.2.2.1]; rfl, fun other binding hf => ?_, ?_⟩, nodup_practiceSessions hnodup⟩
    · rw [hids.2.2.1] at hf
      cases hf
    · rw [spawn_table]
      obtain ⟨stack, hstack, rfl⟩ := List.mem_map.mp hentry
      exact hseated stack hstack
  exact bindSeats_ok (nodup_practiceSeats hnodup) hbindable hids.1.symm hids.2.1.symm

end bound

/-- A runtime spawned on a hand that starts serves it, and goes on doing so while its seats are bound. -/
theorem bindSeats_serves {h : MultiwayHand} (hstarts : HandStarts c h)
    (hbinds : bindSeats localTableId handId stayConnected entries (.spawn (.new localTableId handId h)) = .ok s') :
    Serves c h.currentWager s' ∧ s'.Logs := by
  refine bindSeats_keeps (P := fun s => Serves c h.currentWager s ∧ s.Logs)
    (fun s op hs => ⟨(hs.1.apply op).serves hs.1, (hs.1.apply op).logs hs.2⟩) hbinds ⟨(spawn_serves hstarts).1, ?_⟩
  rw [RuntimeState.Logs, spawn_table, (spawn_ids (.new localTableId handId h)).2.2.2]
  exact loggedFrom_nil _ _

/-- What a start comes to once each of its steps has succeeded. -/
theorem fromStacks_eq {h : MultiwayHand} {bound subscribed : RuntimeState} {initial : SubscriptionUpdate}
    {client : ProjectionClient}
    (hbuild : (practiceConfig tableSize button seatStacks (shuffle reviewSeed).val).build = .ok hand)
    (hauthority : practiceAuthority handId hand reviewSeed = .new localTableId handId h)
    (hbinds : bindSeats localTableId handId stayConnected (practiceEntries seatStacks)
      (.spawn (.new localTableId handId h)) = .ok bound)
    (hsubscribe : bound.subscribe (practiceSession 0) = (.ok (), subscribed))
    (hchannel : subscribed.channel (practiceSession 0) = [initial])
    (hclient : ProjectionClient.bootstrapFromUpdate initial = .ok client) (nonce : Nat) :
    fromStacks tableSize button handId seatStacks reviewSeed shuffle nonce = .ok {
      runtime := (RuntimeOp.receive (practiceSession 0)).apply subscribed
      localSession := practiceSession 0
      app := .new client nonce
      tableSize := tableSize
      handId := handId
      button := button
      openingStacks := seatStacks } := by
  unfold fromStacks
  rw [hbuild]
  dsimp only
  rw [practiceSessions_ok, hauthority]
  dsimp only
  rw [hbinds]
  dsimp only
  rw [practiceSessionFor_ok]
  dsimp only
  rw [hsubscribe]
  dsimp only
  rw [hchannel]
  dsimp only
  rw [hclient]

/-- Stacks that make a hand, the local player's among them, start one. -/
theorem fromStacks_deals (hbuild : (practiceConfig tableSize button seatStacks (shuffle reviewSeed).val).build = .ok hand)
    (hnodup : (seatStacks.map (·.1)).Nodup) (hlocal : (0 : SeatId) ∈ seatStacks.map (·.1)) (nonce : Nat) :
    ∃ p, fromStacks tableSize button handId seatStacks reviewSeed shuffle nonce = .ok p ∧
      p.Deals tableSize button handId seatStacks := by
  obtain ⟨h, hauthority, hstarts⟩ := @practiceAuthority_starts tableSize button handId seatStacks reviewSeed hand _ hbuild
    (shuffle reviewSeed).property
  have hids := spawn_ids (.new localTableId handId h)
  have hseated : ∀ q, q ∈ h.occupiedSeats ↔ q ∈ seatStacks.map (·.1) := by
    intro q
    exact (hstarts.stage.seated.1 q).trans (List.lookup_isSome_iff.trans (by simp [practiceConfig]))
  have hbinds := @bindSeats_practice handId _ h hnodup fun entry hentry => (hseated _).mpr (List.mem_map_of_mem hentry)
  have hserves := bindSeats_serves hstarts hbinds
  have hsame := sessions_withPlayers (practiceEntries seatStacks) (.spawn (.new localTableId handId h))
  have hfound := @find_practiceSession (.spawn (.new localTableId handId h)) _ hnodup hlocal
  generalize (RuntimeState.spawn (.new localTableId handId h)).withPlayers (practiceEntries seatStacks) = bound at *
  have htable : bound.table = .new localTableId handId h := by rw [hsame, spawn_table]
  have hin : (0 : SeatId) ∈ bound.table.hand.occupiedSeats := by
    rw [htable]
    exact (hseated 0).mpr hlocal
  obtain ⟨subscribed, initial, client, hsubscribe, hchannel, hclient, hnow⟩ :=
    subscribe_bootstraps hfound (by rw [hsame]; exact spawn_fresh _) hin
  have hkept := (hserves.1.apply (.subscribe (practiceSession 0))).serves hserves.1
  have hlogged := (hserves.1.apply (.subscribe (practiceSession 0))).logs hserves.2
  rw [RuntimeOp.apply, hsubscribe] at hkept hlogged
  have hreceived := hkept.apply (.receive (practiceSession 0))
  have hhand : subscribed.table.hand = h := by rw [hnow, htable]; rfl
  refine ⟨_, fromStacks_eq hbuild hauthority hbinds hsubscribe hchannel hclient nonce, rfl, rfl, rfl, rfl,
    ⟨_, _, ?_, hreceived.serves hkept, hreceived.logs hlogged, ?_, rfl, rfl, rfl, hstarts.button, ?_, hnodup⟩, ?_⟩
  · show HandStarts _ subscribed.table.hand
    rw [hhand]
    exact hstarts
  · show subscribed.handId = handId
    rw [hnow, hsame]
    exact hids.2.1
  · intro q
    simp [HandConfig.deadPosts, practiceConfig, Ledger.credited]
  · show subscribed.acceptedEvents = []
    rw [hnow, hsame]
    exact hids.2.2.2

end starts

end LocalPractice

end OpenFelt
