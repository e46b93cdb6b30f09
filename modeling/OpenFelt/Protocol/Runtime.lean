/-
  OpenFelt.Protocol.Runtime — every order of requests to an authorized table.

  A request is answered between two rounds of bookkeeping that no rule of the game sees
  (`Quiet`): what it does to the game is one of the moves of `Core`. `Serves` holds of
  every runtime reached (`Serves.run`).
-/

import OpenFelt.Game.Seated
import OpenFelt.Lib.Numerals
import OpenFelt.Protocol.AuthorizedTable
import OpenFelt.Protocol.ExactlyOnce

namespace OpenFelt

open MultiwayHand (Stage)

/-! ## Numbered command ids -/

/-- A short label and a number make a valid id. -/
theorem numbered_valid {label : String} {n : Nat} (hlabel : label.toList.all idCharacter = true) (hsize : label.utf8ByteSize ≤ 44)
    (hn : n < 10 ^ 20) : validCommandId (label ++ toString n) = true := by
  have hnumber : n.repr.utf8ByteSize ≤ 20 := Numerals.utf8ByteSize_repr_le (by decide) hn
  have hfits : (label ++ toString n).utf8ByteSize ≤ maxCommandIdBytes := by
    rw [String.utf8ByteSize_append, Nat.toString_eq_repr, maxCommandIdBytes]
    omega
  have hnonempty : (label ++ toString n).isEmpty = false := by
    rw [Bool.eq_false_iff]
    intro he
    have hnil := congrArg String.toList (String.isEmpty_iff.mp he)
    have hlen := congrArg List.length hnil
    simp at hlen
  have hall : (label ++ toString n).toList.all idCharacter = true := by
    rw [String.toList_append, List.all_append, hlabel, Bool.true_and, List.all_eq_true, Nat.toString_eq_repr]
    intro c hc
    simp [idCharacter, Char.isAlphanum, Numerals.isDigit_of_mem hc]
  rw [validCommandId, hnonempty, hall, decide_eq_true hfits]
  rfl

theorem numbered_injective (label : String) {m n : Nat} (h : label ++ toString m = label ++ toString n) : m = n := by
  have hlist := congrArg String.toList h
  rw [String.toList_append, String.toList_append, List.append_cancel_left_eq, Nat.toString_eq_repr, Nat.toString_eq_repr] at hlist
  exact Numerals.repr_injective (String.toList_injective hlist)

/-! ## What the authority answers -/

namespace ProtocolAuthority

/-- A new command that the ledger has room for. -/
structure Recordable (a : ProtocolAuthority) (envelope : CommandEnvelope) (server : Bool) : Prop where
  framed : a.framingRefusal envelope server = none
  unused : a.recorded envelope.commandId = none
  room : a.recordedCommands.length < maxRecordedCommandsPerHand

/-- The event of the envelope once its payload is accepted. -/
def eventOf (a : ProtocolAuthority) (envelope : CommandEnvelope) : EventEnvelope :=
  ⟨protocolVersion, envelope.commandId, a.tableId, a.handId, a.revision + 1,
    a.acceptedEvent (a.applyPayload envelope.payload).2 envelope.payload⟩

/-- The authority an accepted envelope leaves. -/
def accepting (a : ProtocolAuthority) (envelope : CommandEnvelope) : ProtocolAuthority :=
  { a with hand := (a.applyPayload envelope.payload).2, revision := a.revision + 1 }.record envelope.commandId
    ⟨envelope.fingerprint, .accepted (a.eventOf envelope)⟩

/-- Everything a submission can answer. -/
inductive Answers (a : ProtocolAuthority) (envelope : CommandEnvelope) (server : Bool) :
    SubmissionReceipt × ProtocolAuthority → Prop
  | unchanged (receipt : SubmissionReceipt) : receipt.acceptedNew = false → Answers a envelope server (receipt, a)
  | refused (receipt : SubmissionReceipt) (entry : RecordedCommand) : a.Recordable envelope server →
      receipt.acceptedNew = false → Answers a envelope server (receipt, a.record envelope.commandId entry)
  | accepted : a.Recordable envelope server → envelope.expectedRevision = a.revision →
      (a.applyPayload envelope.payload).1 = .ok () →
      Answers a envelope server (a.receipt (.accepted (a.eventOf envelope)) .processed, a.accepting envelope)

section answers
variable {a : ProtocolAuthority} {envelope : CommandEnvelope} {server : Bool} {audience : ProjectionAudience}
  {c : HandConfig} {posted : Nat}

theorem execute_accepts (hrev : envelope.expectedRevision = a.revision)
    (hok : (a.applyPayload envelope.payload).1 = .ok ()) : a.execute envelope = (.accepted (a.eventOf envelope),
      { a with hand := (a.applyPayload envelope.payload).2, revision := a.revision + 1 }) := by
  unfold execute
  rw [if_neg (not_not_intro hrev)]
  unfold eventOf
  cases hp : a.applyPayload envelope.payload with
  | mk result hand =>
    rw [hp] at hok
    cases hok
    rfl

theorem execute_refuses (h : ¬ (envelope.expectedRevision = a.revision ∧ (a.applyPayload envelope.payload).1 = .ok ())) :
    ∃ error, a.execute envelope = (.rejected error, a) := by
  rcases a.execute_cases envelope with hr | ⟨hand, event, he⟩
  · exact hr
  refine absurd ?_ h
  unfold execute at he
  by_cases hrev : envelope.expectedRevision = a.revision
  · refine ⟨hrev, ?_⟩
    rw [if_neg (not_not_intro hrev)] at he
    cases hp : a.applyPayload envelope.payload with
    | mk result k =>
      rw [hp] at he
      cases result with
      | ok u => rfl
      | error e => cases he
  · rw [if_pos hrev] at he
    cases he

theorem applyPayload_valid {seat : SeatId} {action : Action} (hv : a.hand.validateCommand ⟨seat, action⟩ = .ok ()) :
    (a.applyPayload (.act seat action)).1 = .ok () := by
  simp only [applyPayload, MultiwayHand.applyCommand, hv]

theorem Recordable.submitFrom (hr : a.Recordable envelope server) : a.submitFrom envelope server =
    (a.receipt (a.execute envelope).1 .processed,
      (a.execute envelope).2.record envelope.commandId ⟨envelope.fingerprint, (a.execute envelope).1⟩) := by
  unfold ProtocolAuthority.submitFrom
  rw [hr.framed, hr.unused]
  dsimp only
  rw [if_neg (Nat.not_le.mpr hr.room)]
  rcases a.execute_cases envelope with ⟨_, he⟩ | ⟨_, _, he⟩
  · rw [he]
  · rw [he]
    rfl

theorem submitFrom_answers (a : ProtocolAuthority) (envelope : CommandEnvelope) (server : Bool) :
    Answers a envelope server (a.submitFrom envelope server) := by
  by_cases hr : a.Recordable envelope server
  · by_cases hok : envelope.expectedRevision = a.revision ∧ (a.applyPayload envelope.payload).1 = .ok ()
    · rw [hr.submitFrom, execute_accepts hok.1 hok.2]
      exact .accepted hr hok.1 hok.2
    · obtain ⟨error, he⟩ := execute_refuses hok
      rw [hr.submitFrom, he]
      exact .refused _ _ hr rfl
  · unfold submitFrom
    cases hf : a.framingRefusal envelope server with
    | some error => exact .unchanged _ rfl
    | none =>
      dsimp only
      cases hn : a.recorded envelope.commandId with
      | some recorded =>
        dsimp only
        split
        · exact .unchanged _ rfl
        · exact .unchanged _ rfl
      | none =>
        dsimp only
        split
        · exact .unchanged _ rfl
        · rename_i hroom
          exact absurd ⟨hf, hn, Nat.not_le.mp hroom⟩ hr

/-- Recording another command keeps the ledger in its bounds. -/
theorem Recordable.record_ledger (hr : a.Recordable envelope server) (entry : RecordedCommand) :
    (a.record envelope.commandId entry).recordedCommands.length = a.recordedCommands.length + 1 ∧
      (a.record envelope.commandId entry).recordedCommands.length ≤ maxRecordedCommandsPerHand := by
  have hlen : (a.record envelope.commandId entry).recordedCommands.length = a.recordedCommands.length + 1 := by simp [record]
  exact ⟨hlen, hlen ▸ hr.room⟩

theorem Recordable.accepting_ledger (hr : a.Recordable envelope server) :
    (a.accepting envelope).recordedCommands.length = a.recordedCommands.length + 1 ∧
      (a.accepting envelope).recordedCommands.length ≤ maxRecordedCommandsPerHand := by
  have hlen : (a.accepting envelope).recordedCommands.length = a.recordedCommands.length + 1 := by simp [accepting, record]
  exact ⟨hlen, hlen ▸ hr.room⟩

/-- A client's command has an id of its own. -/
theorem Recordable.unreserved (hr : a.Recordable envelope false) : reservedServerCommandId envelope.commandId = false := by
  obtain ⟨_, _, hfree, _⟩ := framingRefusal_none.mp hr.framed
  exact hfree.resolve_left (by simp)

/-- The hand an accepted payload leaves is one call on. -/
theorem accepting_stage (hs : Stage c posted a.hand) : Stage c posted (a.accepting envelope).hand := by
  obtain ⟨op, hop⟩ := a.applyPayload_hand envelope.payload
  show Stage c posted (a.applyPayload envelope.payload).2
  rw [hop]
  exact hs.step op

/-- Spectators and the seats dealt in have a view. -/
theorem snapshot_ok (h : ∀ p, audience = .player p → p ∈ a.hand.occupiedSeats) : ∃ view,
    a.snapshot audience = .ok ⟨protocolVersion, a.tableId, a.handId, a.revision, view⟩ ∧
      a.hand.projectHand a.handId audience = .ok view := by
  have hunseated : a.hand.unseated audience = none := by
    cases audience with
    | spectator => rfl
    | player p =>
      have hany : a.hand.occupiedSeats.any (· == p) = true := List.any_eq_true.mpr ⟨p, h p rfl, by simp⟩
      simp only [MultiwayHand.unseated, hany, if_true]
  obtain ⟨view, hview⟩ : ∃ view, a.hand.projectHand a.handId audience = .ok view := by
    unfold MultiwayHand.projectHand
    rw [hunseated]
    exact ⟨_, rfl⟩
  refine ⟨view, ?_, hview⟩
  rw [snapshot, hview]
  rfl

/-- An audience whose seat is dealt in is served. -/
theorem serve_ok (hs : Stage c posted a.hand) (haudience : ∀ p, audience = .player p → (c.seatStacks.lookup p).isSome = true) :
    ∃ snapshot, a.serve envelope audience server =
      (.ok ⟨(a.submitFrom envelope server).1, snapshot⟩, (a.submitFrom envelope server).2) := by
  have hafter := apply_stage hs (.submit envelope server)
  obtain ⟨view, hview, _⟩ := snapshot_ok fun p hp => (hs.seated.1 p).mpr (haudience p hp)
  obtain ⟨view', hview', _⟩ := snapshot_ok fun p hp => (hafter.seated.1 p).mpr (haudience p hp)
  unfold serve
  rw [hview]
  change (a.submitFrom envelope server).2.snapshot audience = _ at hview'
  dsimp only
  rw [hview']
  exact ⟨_, rfl⟩

/-- Nobody is to act in a hand whose showdown has moved on. -/
theorem advanced_waits (hs : Stage c posted a.hand) {event : EventEnvelope} {next : ProtocolAuthority}
    (h : a.advanceShowdown = (some event, next)) : a.hand.toAct = none ∧ next.hand.toAct = none ∧
      next.recordedCommands = a.recordedCommands ∧ next.tableId = a.tableId ∧ next.handId = a.handId := by
  unfold advanceShowdown at h
  cases hadv : a.hand.advanceShowdown with
  | mk moved hand =>
    rw [hadv] at h
    cases moved with
    | false => cases h
    | true =>
      cases h
      generalize a.hand = before at hs hadv
      cases hs with
      | playing _ hp => rw [MultiwayHand.advanceShowdown_none hp.quiet.progress] at hadv; cases hadv
      | showing _ hsh _ =>
        refine ⟨hsh.contest.waiting, ?_, rfl, rfl, rfl⟩
        rcases hsh.advance_cases with ⟨k, progress, he, hk, _⟩ | ⟨g, _, _, _, _, he⟩
        · rw [hadv] at he; cases he; exact hk.contest.waiting
        · rw [hadv] at he; cases he; exact (MultiwayHand.settle_over g).toAct
      | settled _ _ => rw [MultiwayHand.advanceShowdown_none (MultiwayHand.settle_over _).progress] at hadv; cases hadv
      | folded _ hu hone =>
        rw [MultiwayHand.advanceShowdown_none (MultiwayHand.awardFold_over hu hone).progress] at hadv; cases hadv

end answers

end ProtocolAuthority

/-! ## Requests -/

/-- A request, the client's end of a subscription included. -/
inductive RuntimeOp where
  | bind (session : GuestSessionId) (tableId : TableId) (handId : HandId) (role : SessionRole)
  | submit (session : GuestSessionId) (command : CommandEnvelope)
  | subscribe (session : GuestSessionId)
  | receive (session : GuestSessionId)
  | hangUp (session : GuestSessionId)
  | disconnect (session : GuestSessionId)
  | reconnect (session : GuestSessionId)
  | advanceTime (nowTick : Nat)
  | progressShowdown (now : Nat)
  deriving DecidableEq, Repr

def RuntimeOp.apply : RuntimeOp → RuntimeState → RuntimeState
  | bind session tableId handId role, s => (s.bind session tableId handId role).2
  | submit session command, s => (s.submit session command).2
  | subscribe session, s => (s.subscribe session).2
  | receive session, s =>
    { s with subscribers := s.subscribers.modify session fun subscriber =>
        { subscriber with updates := subscriber.updates.tail } }
  | hangUp session, s =>
    { s with subscribers := s.subscribers.modify session fun subscriber => { subscriber with listening := false } }
  | disconnect session, s => (s.disconnect session).2
  | reconnect session, s => (s.reconnect session).2
  | advanceTime nowTick, s => (s.advanceTime nowTick).2
  | progressShowdown now, s => (s.progressShowdown now).2

namespace RuntimeState

open ProtocolAuthority

def run (s : RuntimeState) (ops : List RuntimeOp) : RuntimeState := ops.foldl (fun s op => op.apply s) s

/-- Every player session holds a seat of the hand. -/
def Bound (s : RuntimeState) : Prop :=
  ∀ session binding p, s.sessions.find? session = some binding → binding.role = .player p → p ∈ s.table.hand.occupiedSeats

/-- The deadline set anew for whoever is to act. -/
def rearmed (s : RuntimeState) : RuntimeState :=
  match s.table.hand.toAct with
  | none => { s with deadline := none }
  | some seat =>
    { s with
      deadline := some ⟨seat, s.nowTick + actionTimeoutTicks - actionWarningTicks, s.nowTick + actionTimeoutTicks, false,
        s.deadlineGeneration + 1⟩
      deadlineGeneration := s.deadlineGeneration + 1 }

/-- What the rules of the game see of a runtime is the same. -/
structure Quiet (s s' : RuntimeState) : Prop where
  table : s'.table = s.table
  tableId : s'.tableId = s.tableId
  handId : s'.handId = s.handId
  roles : ∀ session, (s'.sessions.find? session).map (·.role) = (s.sessions.find? session).map (·.role)
  deadline : s'.deadline.map (fun d => (d.seat, d.generation)) = s.deadline.map fun d => (d.seat, d.generation)
  generation : s'.deadlineGeneration = s.deadlineGeneration
  events : s'.acceptedEvents = s.acceptedEvents

/-- Everything a request can do to the game. -/
inductive Core (s : RuntimeState) : RuntimeState → Prop
  | same : Core s s
  | bound (session : GuestSessionId) (role : SessionRole) : s.sessions.find? session = none →
      (∀ p, role = .player p → p ∈ s.table.hand.occupiedSeats) →
      (∀ p, role = .player p → ∀ other binding, s.sessions.find? other = some binding → binding.role ≠ .player p) →
      Core s { s with sessions := s.sessions.insert session ⟨role, true⟩ }
  | refused (command : CommandEnvelope) (server : Bool) (entry : RecordedCommand) :
      s.table.Recordable command server → server = false → Core s { s with table := s.table.record command.commandId entry }
  | preferred (command : CommandEnvelope) (seat : SeatId) (always : Bool) : s.table.Recordable command false →
      (s.table.applyPayload command.payload).1 = .ok () → command.payload = .showdownPreference seat always →
      Core s { s with
        table := s.table.accepting command
        acceptedEvents := s.acceptedEvents ++ [s.table.eventOf command] }
  | acted (command : CommandEnvelope) (seat : SeatId) (action : Action) : s.table.Recordable command false →
      (s.table.applyPayload command.payload).1 = .ok () → command.payload = .act seat action →
      Core s { s with
        table := s.table.accepting command
        acceptedEvents := s.acceptedEvents ++ [s.table.eventOf command] }.rearmed
  | timedOut (d : ActionDeadline) (command : CommandEnvelope) (action : Action) : s.table.Recordable command true →
      (s.table.applyPayload command.payload).1 = .ok () → command.payload = .act d.seat action → s.deadline = some d →
      command.commandId = timeoutCommandId s.handId d.generation →
      Core s { s with
        table := s.table.accepting command
        acceptedEvents := s.acceptedEvents ++ [s.table.eventOf command] }.rearmed
  | advanced (event : EventEnvelope) (table : ProtocolAuthority) : s.table.advanceShowdown = (some event, table) →
      Core s { s with table := table, acceptedEvents := s.acceptedEvents ++ [event] }.rearmed

section requests
variable {c : HandConfig} {posted : Nat} {s s' s'' : RuntimeState} {session : GuestSessionId}
  {reason : SubscriptionReason} {event : Option EventEnvelope}

theorem Quiet.refl (s : RuntimeState) : Quiet s s := ⟨rfl, rfl, rfl, fun _ => rfl, rfl, rfl, rfl⟩

theorem Quiet.trans (a : Quiet s s') (b : Quiet s' s'') : Quiet s s'' :=
  ⟨b.1.trans a.1, b.2.trans a.2, b.3.trans a.3, fun x => (b.4 x).trans (a.4 x), b.5.trans a.5, b.6.trans a.6, b.7.trans a.7⟩

/-! ## Views and broadcasts -/

theorem view_ok {audience : ProjectionAudience} (h : ∀ p, audience = .player p → p ∈ s.table.hand.occupiedSeats) :
    ∃ view, s.view audience = .ok ⟨protocolVersion, s.table.tableId, s.table.handId, s.table.revision, view⟩ ∧
      s.table.hand.projectHand s.table.handId audience = .ok view := by
  obtain ⟨view, hview, hproject⟩ := snapshot_ok h
  exact ⟨view, by rw [RuntimeState.view, hview]; rfl, hproject⟩

/-- What a spectator's view says of the hand. -/
theorem view_spectator (s : RuntimeState) : ∃ envelope, s.view .spectator = .ok envelope ∧
    envelope.snapshot.toAct = s.table.hand.toAct ∧ envelope.snapshot.showdown = s.table.hand.showdownProgress ∧
      envelope.snapshot.phase = s.table.hand.phase := by
  obtain ⟨view, hview, hproject⟩ := @view_ok s .spectator (fun p hp => by cases hp)
  have hfields := Except.ok.inj hproject
  exact ⟨_, hview, by rw [← hfields], by rw [← hfields], by rw [← hfields]⟩

theorem rescheduleDeadline_eq (s : RuntimeState) : s.rescheduleDeadline = (.ok (), s.rearmed) := by
  obtain ⟨envelope, hview, hto, _, _⟩ := s.view_spectator
  unfold rescheduleDeadline rearmed
  rw [hview]
  dsimp only
  rw [hto]
  cases s.table.hand.toAct <;> rfl

theorem deliver_ok (hb : s.Bound) (sessions : List GuestSessionId) (subscribers : OrdMap GuestSessionId Subscriber) :
    ∃ remove, (s.deliver reason event sessions subscribers).1 = .ok remove := by
  induction sessions generalizing subscribers with
  | nil => exact ⟨_, rfl⟩
  | cons session rest ih =>
    have hdropped : ∀ subscribers, ∃ remove,
        (s.deliver reason event rest subscribers).1.map (session :: ·) = .ok remove := by
      intro subscribers
      obtain ⟨remove, hr⟩ := ih subscribers
      exact ⟨session :: remove, by rw [hr]; rfl⟩
    unfold deliver
    cases hf : s.sessions.find? session with
    | none => exact hdropped subscribers
    | some binding =>
      dsimp only
      split
      · exact hdropped subscribers
      · have haudience : ∀ p, binding.role.audience = .player p → p ∈ s.table.hand.occupiedSeats := by
          intro p hp
          refine hb session binding p hf ?_
          cases hrole : binding.role with
          | spectator => rw [hrole] at hp; cases hp
          | player q => rw [hrole] at hp; cases hp; rfl
        obtain ⟨view, hview, _⟩ := view_ok haudience
        rw [hview]
        dsimp only
        split
        · exact ih subscribers
        · split
          · exact ih _
          · exact hdropped subscribers

/-- A broadcast reaches its subscribers or drops them, and touches nothing else. -/
theorem broadcast_ok (hb : s.Bound) : ∃ subscribers, s.broadcast reason event =
    (.ok (), { s with streamSequence := s.streamSequence + 1, subscribers := subscribers }) := by
  have hb' : Bound { s with streamSequence := s.streamSequence + 1 } := hb
  obtain ⟨remove, hr⟩ := @deliver_ok { s with streamSequence := s.streamSequence + 1 } reason event hb'
    s.subscribers.keys s.subscribers
  unfold broadcast
  dsimp only
  cases hd : deliver { s with streamSequence := s.streamSequence + 1 } reason event s.subscribers.keys s.subscribers with
  | mk result subscribers =>
    rw [hd] at hr
    cases hr
    exact ⟨_, rfl⟩

/-! ## What every runtime keeps -/

/-- What holds of the runtime that serves a hand of `c`, whatever has been asked of it. -/
structure Serves (c : HandConfig) (posted : Nat) (s : RuntimeState) : Prop where
  stage : Stage c posted s.table.hand
  tableId : s.table.tableId = s.tableId
  handId : s.table.handId = s.handId
  bound : ∀ session binding p, s.sessions.find? session = some binding → binding.role = .player p →
    (c.seatStacks.lookup p).isSome = true
  owned : ∀ session other binding binding' p, s.sessions.find? session = some binding → binding.role = .player p →
    s.sessions.find? other = some binding' → binding'.role = .player p → session = other
  armed : s.deadline.map (·.seat) = s.table.hand.toAct
  current : ∀ d, s.deadline = some d → d.generation = s.deadlineGeneration
  counted : s.deadlineGeneration ≤ s.table.recordedCommands.length + 1
  ledger : s.table.recordedCommands.length ≤ maxRecordedCommandsPerHand
  /-- The reserved ids recorded are those of deadlines that have expired. -/
  reserved : ∀ entry ∈ s.table.recordedCommands, reservedServerCommandId entry.1 = true →
    ∃ g ≤ s.deadlineGeneration, entry.1 = timeoutCommandId s.handId g ∧ (g = s.deadlineGeneration → s.deadline = none)

theorem Serves.toBound (hs : Serves c posted s) : s.Bound := fun session binding p hf hp =>
  (hs.stage.seated.1 p).mpr (hs.bound session binding p hf hp)

theorem Quiet.serves (hq : Quiet s s') (hs : Serves c posted s) : Serves c posted s' := by
  have hrole : ∀ session binding, s'.sessions.find? session = some binding →
      ∃ binding', s.sessions.find? session = some binding' ∧ binding'.role = binding.role := by
    intro session binding hf
    have hroles := hq.roles session
    rw [hf] at hroles
    exact Option.map_eq_some_iff.mp hroles.symm
  have hkey : s'.deadline.map (·.seat) = s.deadline.map (·.seat) := by
    have := congrArg (Option.map Prod.fst) hq.deadline
    simpa [Option.map_map, Function.comp_def] using this
  have hnone : s.deadline = none → s'.deadline = none := by
    intro hn
    have := hq.deadline
    rw [hn] at this
    exact Option.map_eq_none_iff.mp this
  refine ⟨hq.table ▸ hs.stage, by rw [hq.table, hq.tableId]; exact hs.tableId, by rw [hq.table, hq.handId]; exact hs.handId,
    ?_, ?_, by rw [hkey, hq.table]; exact hs.armed, ?_, by rw [hq.generation, hq.table]; exact hs.counted,
    by rw [hq.table]; exact hs.ledger, ?_⟩
  · intro session binding p hf hp
    obtain ⟨binding', hf', hr⟩ := hrole session binding hf
    exact hs.bound session binding' p hf' (hr.trans hp)
  · intro session other binding binding' p hf hp hf' hp'
    obtain ⟨b, hb, hr⟩ := hrole session binding hf
    obtain ⟨b', hb', hr'⟩ := hrole other binding' hf'
    exact hs.owned session other b b' p hb (hr.trans hp) hb' (hr'.trans hp')
  · intro d hd
    have hmap := hq.deadline
    rw [hd] at hmap
    obtain ⟨d', hd', he⟩ := Option.map_eq_some_iff.mp hmap.symm
    rw [hq.generation, ← hs.current d' hd']
    exact (congrArg Prod.snd he).symm
  · intro entry he hr
    rw [hq.table] at he
    obtain ⟨g, hg, hid, hlast⟩ := hs.reserved entry he hr
    exact ⟨g, by rw [hq.generation]; exact hg, by rw [hq.handId]; exact hid,
      fun e => hnone (hlast (by rw [← hq.generation]; exact e))⟩

/-- Arming the deadline anew counts one generation when a seat is to act. -/
theorem rearmed_cases (s : RuntimeState) :
    (s.table.hand.toAct = none ∧ s.rearmed = { s with deadline := none }) ∨
      ∃ d, s.table.hand.toAct = some d.seat ∧ d.generation = s.deadlineGeneration + 1 ∧
        d.dueTick = s.nowTick + actionTimeoutTicks ∧
        s.rearmed = { s with deadline := some d, deadlineGeneration := s.deadlineGeneration + 1 } := by
  unfold rearmed
  cases hto : s.table.hand.toAct with
  | none => exact Or.inl ⟨rfl, rfl⟩
  | some seat => exact Or.inr ⟨_, rfl, rfl, rfl, rfl⟩

/-- The ledger's reserved ids before a command whose id is not one, or is the expired deadline's. -/
theorem Serves.reserved_record (hs : Serves c posted s) {entry : String × RecordedCommand} {id : String}
    (he : entry ∈ s.table.recordedCommands ∨ entry.1 = id) (hr : reservedServerCommandId entry.1 = true)
    (hid : reservedServerCommandId id = true → id = timeoutCommandId s.handId s.deadlineGeneration) :
    ∃ g ≤ s.deadlineGeneration, entry.1 = timeoutCommandId s.handId g := by
  rcases he with he | he
  · obtain ⟨g, hg, hname, _⟩ := hs.reserved entry he hr
    exact ⟨g, hg, hname⟩
  · exact ⟨_, Nat.le_refl _, he.trans (hid (he ▸ hr))⟩

/-- A move to a new hand state with the deadline armed anew. -/
theorem Serves.rearm (hs : Serves c posted s) {table : ProtocolAuthority} {events : List EventEnvelope}
    (hstage : Stage c posted table.hand) (htable : table.tableId = s.table.tableId) (hhand : table.handId = s.table.handId)
    (hledger : table.recordedCommands.length ≤ maxRecordedCommandsPerHand)
    (hgrown : table.hand.toAct ≠ none → s.table.recordedCommands.length < table.recordedCommands.length)
    (hkept : s.table.recordedCommands.length ≤ table.recordedCommands.length)
    (hreserved : ∀ entry ∈ table.recordedCommands, reservedServerCommandId entry.1 = true →
      ∃ g ≤ s.deadlineGeneration, entry.1 = timeoutCommandId s.handId g) :
    Serves c posted { s with table := table, acceptedEvents := events }.rearmed := by
  have hcounted := hs.counted
  rcases rearmed_cases { s with table := table, acceptedEvents := events } with ⟨hto, he⟩ | ⟨d, hto, hgen, _, he⟩
  · rw [he]
    refine ⟨hstage, htable.trans hs.tableId, hhand.trans hs.handId, hs.bound, hs.owned, hto.symm, ?_, ?_, hledger, ?_⟩
    · intro d hd
      cases hd
    · show s.deadlineGeneration ≤ table.recordedCommands.length + 1
      omega
    · intro entry hmem hr
      obtain ⟨g, hg, hname⟩ := hreserved entry hmem hr
      exact ⟨g, hg, hname, fun _ => rfl⟩
  · rw [he]
    have hmore := hgrown (by rw [show table.hand.toAct = some d.seat from hto]; simp)
    refine ⟨hstage, htable.trans hs.tableId, hhand.trans hs.handId, hs.bound, hs.owned, hto.symm, ?_, ?_, hledger, ?_⟩
    · intro d' hd
      cases hd
      exact hgen
    · show s.deadlineGeneration + 1 ≤ table.recordedCommands.length + 1
      omega
    · intro entry hmem hr
      obtain ⟨g, hg, hname⟩ := hreserved entry hmem hr
      refine ⟨g, Nat.le_succ_of_le hg, hname, fun e => ?_⟩
      have : g = s.deadlineGeneration + 1 := e
      omega

theorem Core.serves (hc : Core s s') (hs : Serves c posted s) : Serves c posted s' := by
  have hrecorded : ∀ (command : CommandEnvelope) (entry : String × RecordedCommand),
      entry ∈ (s.table.accepting command).recordedCommands →
        entry ∈ s.table.recordedCommands ∨ entry.1 = command.commandId := by
    intro command entry he
    rcases List.mem_append.mp he with he | he
    · exact Or.inl he
    · exact Or.inr (by rw [List.mem_singleton.mp he])
  cases hc with
  | same => exact hs
  | bound session role hnew hseat hfree =>
    have hfind : ∀ other binding, (s.sessions.insert session ⟨role, true⟩).find? other = some binding →
        (other = session ∧ binding.role = role) ∨ s.sessions.find? other = some binding := by
      intro other binding hf
      rw [OrdMap.find_insert] at hf
      split at hf
      · cases hf; exact Or.inl ⟨‹_›, rfl⟩
      · exact Or.inr hf
    refine ⟨hs.stage, hs.tableId, hs.handId, ?_, ?_, hs.armed, hs.current, hs.counted, hs.ledger, hs.reserved⟩
    · intro other binding p hf hp
      rcases hfind other binding hf with ⟨_, hrole⟩ | hf
      · exact (hs.stage.seated.1 p).mp (hseat p (hrole ▸ hp))
      · exact hs.bound other binding p hf hp
    · intro x y b b' p hx hp hy hp'
      rcases hfind x b hx with ⟨hx, hrole⟩ | hx'
      · rcases hfind y b' hy with ⟨hy, _⟩ | hy'
        · rw [hx, hy]
        · exact absurd hp' (hfree p (hrole ▸ hp) y b' hy')
      · rcases hfind y b' hy with ⟨_, hrole⟩ | hy'
        · exact absurd hp (hfree p (hrole ▸ hp') x b hx')
        · exact hs.owned x y b b' p hx' hp hy' hp'
  | refused command server entry hr hserver =>
    subst hserver
    obtain ⟨hlen, hle⟩ := hr.record_ledger entry
    have hcounted := hs.counted
    refine ⟨hs.stage, hs.tableId, hs.handId, hs.bound, hs.owned, hs.armed, hs.current, ?_, hle, ?_⟩
    · show s.deadlineGeneration ≤ (s.table.record command.commandId entry).recordedCommands.length + 1
      omega
    · intro e he hres
      rcases List.mem_append.mp he with he | he
      · exact hs.reserved e he hres
      · rw [List.mem_singleton.mp he, hr.unreserved] at hres
        cases hres
  | preferred command seat always hr hok hpayload =>
    obtain ⟨hlen, hle⟩ := hr.accepting_ledger
    have hcounted := hs.counted
    have hto : (s.table.accepting command).hand.toAct = s.table.hand.toAct := by
      show (s.table.applyPayload command.payload).2.toAct = _
      rw [hpayload]
      simp only [applyPayload, MultiwayHand.setAlwaysShow]
      split
      · rfl
      · split <;> rfl
    refine ⟨accepting_stage hs.stage, hs.tableId, hs.handId, hs.bound, hs.owned, hs.armed.trans hto.symm, hs.current, ?_, hle, ?_⟩
    · show s.deadlineGeneration ≤ (s.table.accepting command).recordedCommands.length + 1
      omega
    · intro e he hres
      rcases hrecorded command e he with he | he
      · exact hs.reserved e he hres
      · rw [he, hr.unreserved] at hres
        cases hres
  | acted command seat action hr hok hpayload =>
    obtain ⟨hlen, hle⟩ := hr.accepting_ledger
    refine hs.rearm (accepting_stage hs.stage) rfl rfl hle (fun _ => by omega) (by omega) fun e he hres => ?_
    exact hs.reserved_record (hrecorded command e he) hres fun h => by rw [hr.unreserved] at h; cases h
  | timedOut d command action hr hok hpayload hd hid =>
    obtain ⟨hlen, hle⟩ := hr.accepting_ledger
    refine hs.rearm (accepting_stage hs.stage) rfl rfl hle (fun _ => by omega) (by omega) fun e he hres => ?_
    exact hs.reserved_record (hrecorded command e he) hres fun _ => by rw [hid, hs.current d hd]
  | advanced event table hadv =>
    obtain ⟨_, hto, hrec, htable, hhand⟩ := advanced_waits hs.stage hadv
    have hstage : Stage c posted table.hand := by
      have := apply_stage hs.stage .advanceShowdown
      rwa [show AuthorityOp.advanceShowdown.apply s.table = table by rw [AuthorityOp.apply, hadv]] at this
    refine hs.rearm hstage htable hhand (hrec ▸ hs.ledger) (fun h => absurd hto h) (by rw [hrec]) fun e he hres => ?_
    obtain ⟨g, hg, hname, _⟩ := hs.reserved e (hrec ▸ he) hres
    exact ⟨g, hg, hname⟩

/-! ## What a request does -/

/-- What a request leaves: a move of the game between two rounds of bookkeeping. -/
def Moves (s s' : RuntimeState) : Prop := ∃ s₁ s₂, Quiet s s₁ ∧ Core s₁ s₂ ∧ Quiet s₂ s'

theorem Quiet.moves (hq : Quiet s s') : Moves s s' := ⟨s, s, .refl s, .same, hq⟩

theorem Core.moves (hc : Core s s') : Moves s s' := ⟨s, s', .refl s, hc, .refl s'⟩

theorem Moves.serves (hm : Moves s s') (hs : Serves c posted s) : Serves c posted s' := by
  obtain ⟨s₁, s₂, h1, h2, h3⟩ := hm
  exact h3.serves (h2.serves (h1.serves hs))

theorem broadcast_quiet (hs : Serves c posted s) : ∃ s', s.broadcast reason event = (.ok (), s') ∧ Quiet s s' ∧
    s'.deadline = s.deadline ∧ s'.nowTick = s.nowTick := by
  obtain ⟨subscribers, he⟩ := @broadcast_ok s reason event hs.toBound
  exact ⟨_, he, ⟨rfl, rfl, rfl, fun _ => rfl, rfl, rfl, rfl⟩, rfl, rfl⟩

theorem bind_core (s : RuntimeState) (session : GuestSessionId) (tableId : TableId) (handId : HandId) (role : SessionRole) :
    Core s (s.bind session tableId handId role).2 := by
  unfold RuntimeState.bind
  by_cases htable : tableId = s.tableId
  swap
  · rw [if_pos htable]; exact .same
  by_cases hhand : handId = s.handId
  swap
  · rw [if_neg (not_not_intro htable), if_pos hhand]; exact .same
  rw [if_neg (not_not_intro htable), if_neg (not_not_intro hhand)]
  by_cases hin : s.sessions.contains session = true
  · rw [if_pos hin]; exact .same
  have hnew : s.sessions.find? session = none := by
    simpa [OrdMap.contains] using hin
  rw [if_neg hin]
  cases role with
  | spectator => exact .bound session .spectator hnew (fun p hp => by cases hp) (fun p hp => by cases hp)
  | player seat =>
    dsimp only
    split
    · exact .same
    · rename_i hfree
      split
      · exact .same
      · rename_i view hview
        refine .bound session (.player seat) hnew (fun p hp => ?_) (fun p hp other binding hf hrole => ?_)
        · cases hp
          by_contra hno
          have hany : s.table.hand.occupiedSeats.any (· == seat) = false := by
            rw [List.any_eq_false]
            intro q hq he
            exact hno (beq_iff_eq.mp he ▸ hq)
          simp [ProtocolAuthority.snapshot, MultiwayHand.projectHand, MultiwayHand.unseated, hany, Except.map] at hview
        · cases hp
          exact hfree (List.any_eq_true.mpr ⟨binding, OrdMap.mem_values.mpr ⟨other, hf⟩, by simpa using hrole⟩)

/-- A submission accepted for the first time is published. -/
theorem published_ok (hs : Serves c posted s) {command : CommandEnvelope} (hr : s.table.Recordable command false)
    (hok : (s.table.applyPayload command.payload).1 = .ok ()) : ∃ s',
    published { s with table := s.table.accepting command }
      (s.table.receipt (.accepted (s.table.eventOf command)) .processed) = (.ok (), s') ∧ Moves s s' := by
  have hevents : ∀ events, ({ s with table := s.table.accepting command } : RuntimeState).rearmed.acceptedEvents ++ events =
      s.acceptedEvents ++ events := by
    intro events
    rcases rearmed_cases { s with table := s.table.accepting command } with ⟨_, he⟩ | ⟨_, _, _, _, he⟩ <;> rw [he]
  have hsame : { ({ s with table := s.table.accepting command } : RuntimeState).rearmed with
        acceptedEvents := s.acceptedEvents ++ [s.table.eventOf command] } =
      ({ s with
        table := s.table.accepting command
        acceptedEvents := s.acceptedEvents ++ [s.table.eventOf command] } : RuntimeState).rearmed := by
    unfold rearmed
    dsimp only
    cases (s.table.accepting command).hand.toAct <;> rfl
  cases hpayload : command.payload with
  | act seat action =>
    have hcore := Core.acted (s := s) command seat action hr hok hpayload
    obtain ⟨s', he, hq, _⟩ := @broadcast_quiet c posted _ .actionAccepted (some (s.table.eventOf command)) (hcore.serves hs)
    refine ⟨s', ?_, s, _, .refl s, hcore, hq⟩
    have hkind : (s.table.eventOf command).event.isAction = true := by
      simp [eventOf, hpayload, acceptedEvent, TableEvent.isAction]
    simp only [published, SubmissionReceipt.acceptedEvent, receipt, Option.any_some, hkind, if_true, rescheduleDeadline_eq,
      Option.toList_some, hevents]
    rw [hsame]
    exact he
  | showdownPreference seat always =>
    have hcore := Core.preferred (s := s) command seat always hr hok hpayload
    obtain ⟨s', he, hq, _⟩ := @broadcast_quiet c posted _ .actionAccepted (some (s.table.eventOf command)) (hcore.serves hs)
    refine ⟨s', ?_, s, _, .refl s, hcore, hq⟩
    have hkind : (s.table.eventOf command).event.isAction = false := by
      simp [eventOf, hpayload, acceptedEvent, TableEvent.isAction]
    simp only [published, SubmissionReceipt.acceptedEvent, receipt, Option.any_some, hkind, Bool.false_eq_true, if_false,
      Option.toList_some]
    exact he

/-- A command of a connected player for this hand is put to the authority, and answered. -/
theorem submit_served (hs : Serves c posted s) {seat : SeatId} {command : CommandEnvelope}
    (hbinding : s.connectedBinding session = .ok ⟨.player seat, true⟩) (htable : command.tableId = s.tableId)
    (hhand : command.handId = s.handId) (hseat : command.payload.seat = seat) : ∃ response s',
    s.submit session command = (.ok response, s') ∧ response.receipt = (s.table.submitFrom command false).1 ∧ Moves s s' ∧
      (response.receipt.acceptedNew = false → s' = { s with table := (s.table.submitFrom command false).2 }) := by
  have hfind : s.sessions.find? session = some ⟨.player seat, true⟩ := by
    unfold connectedBinding at hbinding
    cases hf : s.sessions.find? session with
    | none => rw [hf] at hbinding; cases hbinding
    | some binding =>
      rw [hf] at hbinding
      dsimp only at hbinding
      split at hbinding
      · rw [Except.ok.inj hbinding]
      · cases hbinding
  obtain ⟨snapshot, hserve⟩ := @serve_ok s.table command false (.player seat) c posted hs.stage
    fun p hp => by cases hp; exact hs.bound session _ seat hfind rfl
  unfold RuntimeState.submit
  rw [hbinding]
  dsimp only
  rw [if_neg (not_not_intro htable), if_neg (not_not_intro hhand), if_neg (not_not_intro hseat), hserve]
  dsimp only
  have hanswers := s.table.submitFrom_answers command false
  generalize s.table.submitFrom command false = answer at hanswers ⊢
  cases hanswers with
  | unchanged receipt hold =>
    refine ⟨⟨receipt, snapshot, s.deadline, s.streamSequence⟩, s, ?_, rfl, (Quiet.refl s).moves, fun _ => rfl⟩
    simp [hold]
  | refused receipt entry hr hold =>
    refine ⟨⟨receipt, snapshot, s.deadline, s.streamSequence⟩, _, ?_, rfl, (Core.refused command false entry hr rfl).moves,
      fun _ => rfl⟩
    simp [hold]
  | accepted hr hrev hok =>
    obtain ⟨s', he, hm⟩ := published_ok hs hr hok
    have hnew : (s.table.receipt (.accepted (s.table.eventOf command)) .processed).acceptedNew = true := by
      simp [SubmissionReceipt.acceptedNew, receipt, CommandOutcome.result]
    refine ⟨⟨s.table.receipt (.accepted (s.table.eventOf command)) .processed, snapshot, s'.deadline, s'.streamSequence⟩,
      s', ?_, rfl, hm, fun hold => by rw [hnew] at hold; cases hold⟩
    dsimp only
    rw [if_pos hnew, he]

theorem submit_moves (hs : Serves c posted s) (session : GuestSessionId) (command : CommandEnvelope) :
    Moves s (s.submit session command).2 := by
  cases hb : s.connectedBinding session with
  | error error =>
    unfold RuntimeState.submit
    rw [hb]
    exact (Quiet.refl s).moves
  | ok binding =>
    obtain ⟨role, connected⟩ := binding
    have hconnected : connected = true := by
      unfold connectedBinding at hb
      split at hb
      · cases hb
      · split at hb
        · cases hb; assumption
        · cases hb
    subst hconnected
    cases role with
    | spectator =>
      unfold RuntimeState.submit
      rw [hb]
      exact (Quiet.refl s).moves
    | player seat =>
      by_cases hmatch : command.tableId = s.tableId ∧ command.handId = s.handId ∧ command.payload.seat = seat
      · obtain ⟨response, s', he, _, hm, _⟩ := submit_served hs hb hmatch.1 hmatch.2.1 hmatch.2.2
        rw [he]
        exact hm
      · unfold RuntimeState.submit
        rw [hb]
        dsimp only
        split
        · exact (Quiet.refl s).moves
        split
        · exact (Quiet.refl s).moves
        split
        · exact (Quiet.refl s).moves
        · rename_i h1 h2 h3
          exact absurd ⟨not_not.mp h1, not_not.mp h2, not_not.mp h3⟩ hmatch

theorem setConnected_moves (hs : Serves c posted s) (session : GuestSessionId) (connected : Bool)
    (subscribers : OrdMap GuestSessionId Subscriber) : Moves s (s.setConnected session connected subscribers).2 := by
  unfold setConnected
  cases hf : s.sessions.find? session with
  | none => exact (Quiet.refl s).moves
  | some binding =>
    dsimp only
    split
    · exact (Quiet.refl s).moves
    · have hquiet : Quiet s { s with
          sessions := s.sessions.insert session { binding with connected := connected }
          subscribers := subscribers } := by
        refine ⟨rfl, rfl, rfl, fun other => ?_, rfl, rfl, rfl⟩
        rw [OrdMap.find_insert]
        split
        · rename_i he; rw [he, hf]; rfl
        · rfl
      obtain ⟨s', he, hq, _⟩ := @broadcast_quiet c posted _ (.connectionStateChanged binding.role.seat connected) none
        (hquiet.serves hs)
      rw [he]
      exact (hquiet.trans hq).moves

theorem progressShowdown_moves (hs : Serves c posted s) (now : Nat) :
    (s.progressShowdown now).1 = .ok () ∧ Moves s (s.progressShowdown now).2 := by
  obtain ⟨envelope, hview, _, hshowdown, _⟩ := s.view_spectator
  unfold progressShowdown
  rw [hview]
  have hclock : ∀ due, Quiet s { s with nextShowdownStep := due } := fun due => ⟨rfl, rfl, rfl, fun _ => rfl, rfl, rfl, rfl⟩
  dsimp only
  cases envelope.snapshot.showdown with
  | none => exact ⟨rfl, (hclock none).moves⟩
  | some progress =>
    dsimp only
    split
    · exact ⟨rfl, (hclock _).moves⟩
    · cases hadv : s.table.advanceShowdown with
      | mk event table =>
        cases event with
        | none =>
          have hsame : table = s.table := by
            rcases s.table.advanceShowdown_cases with he | ⟨_, _, he⟩
            · rw [he] at hadv; cases hadv; rfl
            · rw [he] at hadv; cases hadv
          subst hsame
          exact ⟨rfl, (hclock _).moves⟩
        | some event =>
          have hcore := Core.advanced (s :=
              { s with nextShowdownStep := some (s.nextShowdownStep.getD (now + showdownStepMillis)) })
            event table hadv
          obtain ⟨s', he, hq, _⟩ := @broadcast_quiet c posted _ .actionAccepted (some event)
            (hcore.serves ((hclock _).serves hs))
          dsimp only
          rw [rescheduleDeadline_eq]
          dsimp only
          rw [he]
          exact ⟨rfl, _, _, hclock _, hcore, hq.trans ⟨rfl, rfl, rfl, fun _ => rfl, rfl, rfl, rfl⟩⟩

end requests

end RuntimeState

end OpenFelt
