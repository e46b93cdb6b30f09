/-
  OpenFelt.Protocol.Announcements — what a request leaves, and who is told of it.

  A request either says nothing to the subscribers or makes one broadcast: `Announces`
  lists what is announced and the runtime it is announced from, `Performs` everything a
  request leaves (`Serves.performs`). A broadcast puts one update into the channel of
  each connected subscriber that has room, and drops the others (`broadcast_told`).
-/

import OpenFelt.Protocol.Deadlines

namespace OpenFelt

open MultiwayHand (Stage)

namespace RuntimeState

open ProtocolAuthority AuthorizedTableError

/-! ## One broadcast -/

/-- The channel of `session` once `event` is broadcast: `none` when it is dropped. -/
def told (s : RuntimeState) (reason : SubscriptionReason) (event : Option EventEnvelope) (session : GuestSessionId)
    (subscriber : Subscriber) : Option Subscriber :=
  match s.sessions.find? session with
  | none => none
  | some binding =>
    if !binding.connected then none
    else
      match s.view binding.role.audience with
      | .error _ => none
      | .ok snapshot => trySend subscriber ⟨s.streamSequence + 1, reason, event, snapshot, s.deadline⟩

section broadcasts
variable {c : HandConfig} {posted : Nat} {s s' : RuntimeState} {reason : SubscriptionReason}
  {event : Option EventEnvelope} {session : GuestSessionId}

/-- Every bound session has a view. -/
theorem Bound.view (hb : s.Bound) {binding : SessionBinding} (hf : s.sessions.find? session = some binding) :
    ∃ view, s.view binding.role.audience = .ok ⟨protocolVersion, s.table.tableId, s.table.handId, s.table.revision, view⟩ ∧
      s.table.hand.projectHand s.table.handId binding.role.audience = .ok view := by
  refine view_ok fun p hp => hb session binding p hf ?_
  cases hrole : binding.role with
  | spectator => rw [hrole] at hp; cases hp
  | player q => rw [hrole] at hp; cases hp; rfl

/-- Where the session is told nothing, whatever its channel, it is dropped. -/
theorem told_nothing {channel : Option Subscriber} (h : ∀ subscriber, s.told reason event session subscriber = none) :
    channel.bind (s.told reason event session) = none := by
  cases channel with
  | none => rfl
  | some subscriber => exact h subscriber

/-- What a delivery through `sessions` leaves: the sessions to remove are among them, the
    channels of the others are left alone, and each of `sessions` is told or removed. -/
structure Delivered (s : RuntimeState) (reason : SubscriptionReason) (event : Option EventEnvelope)
    (sessions : List GuestSessionId) (before : OrdMap GuestSessionId Subscriber) (remove : List GuestSessionId)
    (left : OrdMap GuestSessionId Subscriber) : Prop where
  among : ∀ x ∈ remove, x ∈ sessions
  others : ∀ x ∉ sessions, left.find? x = before.find? x
  told : ∀ x ∈ sessions, (if x ∈ remove then none else left.find? x) = (before.find? x).bind (s.told reason event x)

section onto
variable {rest remove : List GuestSessionId} {before left : OrdMap GuestSessionId Subscriber} (hnew : session ∉ rest)

include hnew

/-- A session that is told nothing is dropped, and the rest is served from the same channels. -/
theorem Delivered.dropped (h : Delivered s reason event rest before remove left)
    (hnone : (before.find? session).bind (s.told reason event session) = none) :
    Delivered s reason event (session :: rest) before (session :: remove) left where
  among := by
    intro x hx
    rcases List.mem_cons.mp hx with rfl | hx
    · exact List.mem_cons_self
    · exact List.mem_cons_of_mem _ (h.among x hx)
  others := fun x hx => h.others x fun hr => hx (List.mem_cons_of_mem _ hr)
  told := by
    intro x hx
    rcases List.mem_cons.mp hx with rfl | hx
    · rw [if_pos List.mem_cons_self, hnone]
    · have hne : x ≠ session := fun e => hnew (e ▸ hx)
      rw [← h.told x hx]
      simp only [List.mem_cons, hne, false_or]

/-- A session whose channel is as it was told keeps it, whatever the rest is served. -/
theorem Delivered.kept {first : OrdMap GuestSessionId Subscriber} (h : Delivered s reason event rest first remove left)
    (hfirst : ∀ x, x ≠ session → first.find? x = before.find? x)
    (hhead : first.find? session = (before.find? session).bind (s.told reason event session)) :
    Delivered s reason event (session :: rest) before remove left where
  among := fun x hx => List.mem_cons_of_mem _ (h.among x hx)
  others := by
    intro x hx
    obtain ⟨hne, hx⟩ := not_or.mp (mt List.mem_cons.mpr hx)
    rw [h.others x hx, hfirst x hne]
  told := by
    intro x hx
    rcases List.mem_cons.mp hx with rfl | hx
    · rw [if_neg fun hx => hnew (h.among x hx), h.others x hnew, hhead]
    · have hne : x ≠ session := fun e => hnew (e ▸ hx)
      rw [h.told x hx, hfirst x hne]

end onto

/-- A delivery goes through every session, one after the other. -/
theorem deliver_told (hb : s.Bound) {sessions : List GuestSessionId} (hn : sessions.Nodup)
    (subscribers : OrdMap GuestSessionId Subscriber) :
    ∃ remove left, deliver { s with streamSequence := s.streamSequence + 1 } reason event sessions subscribers =
        (.ok remove, left) ∧ Delivered s reason event sessions subscribers remove left := by
  induction sessions generalizing subscribers with
  | nil => exact ⟨[], subscribers, rfl, fun x hx => hx, fun _ _ => rfl, fun x hx => absurd hx List.not_mem_nil⟩
  | cons session rest ih =>
    obtain ⟨hnew, hrest⟩ := List.nodup_cons.mp hn
    -- The two ways to go on: the session is listed to be removed, or its channel is written.
    have hdrop (hnone : (subscribers.find? session).bind (s.told reason event session) = none) :
        ∃ remove left,
          ((deliver { s with streamSequence := s.streamSequence + 1 } reason event rest subscribers).1.map (session :: ·),
            (deliver { s with streamSequence := s.streamSequence + 1 } reason event rest subscribers).2) = (.ok remove, left) ∧
          Delivered s reason event (session :: rest) subscribers remove left := by
      obtain ⟨remove, left, he, h⟩ := ih hrest subscribers
      exact ⟨session :: remove, left, by rw [he]; rfl, h.dropped hnew hnone⟩
    have hkeep (first : OrdMap GuestSessionId Subscriber) (hfirst : ∀ x, x ≠ session → first.find? x = subscribers.find? x)
        (hhead : first.find? session = (subscribers.find? session).bind (s.told reason event session)) :
        ∃ remove left, deliver { s with streamSequence := s.streamSequence + 1 } reason event rest first = (.ok remove, left) ∧
          Delivered s reason event (session :: rest) subscribers remove left := by
      obtain ⟨remove, left, he, h⟩ := ih hrest first
      exact ⟨remove, left, he, h.kept hnew hfirst hhead⟩
    unfold deliver
    cases hf : s.sessions.find? session with
    | none => exact hdrop (told_nothing fun subscriber => by simp only [told, hf])
    | some binding =>
      dsimp only
      by_cases hconnected : binding.connected = true
      swap
      · rw [if_pos (by simp [hconnected])]
        exact hdrop (told_nothing fun subscriber => by simp [told, hf, hconnected])
      rw [if_neg (by simp [hconnected])]
      obtain ⟨view, hview, _⟩ := hb.view hf
      rw [show RuntimeState.view { s with streamSequence := s.streamSequence + 1 } binding.role.audience = _ from hview]
      dsimp only
      cases hchannel : subscribers.find? session with
      | none =>
        refine hkeep subscribers (fun _ _ => rfl) ?_
        rw [hchannel]
        rfl
      | some subscriber =>
        dsimp only
        have htold : (subscribers.find? session).bind (s.told reason event session) =
            trySend subscriber ⟨s.streamSequence + 1, reason, event,
              ⟨protocolVersion, s.table.tableId, s.table.handId, s.table.revision, view⟩, s.deadline⟩ := by
          rw [hchannel]
          simp [told, hf, hconnected, hview]
        cases hsend : trySend subscriber ⟨s.streamSequence + 1, reason, event,
            ⟨protocolVersion, s.table.tableId, s.table.handId, s.table.revision, view⟩, s.deadline⟩ with
        | none => exact hdrop (htold.trans hsend)
        | some sent =>
          refine hkeep (subscribers.insert session sent) (fun x hx => OrdMap.find_insert_ne hx) ?_
          rw [htold, hsend, OrdMap.find_insert_self]

/-- A broadcast is numbered next and touches the channels only: each subscriber is told,
    or dropped. -/
theorem broadcast_told (hb : s.Bound) (reason : SubscriptionReason) (event : Option EventEnvelope) : ∃ subscribers,
    s.broadcast reason event = (.ok (), { s with streamSequence := s.streamSequence + 1, subscribers := subscribers }) ∧
      ∀ session, subscribers.find? session = (s.subscribers.find? session).bind (s.told reason event session) := by
  obtain ⟨remove, left, he, hd⟩ := @deliver_told s reason event hb _ s.subscribers.nodup_keys s.subscribers
  unfold broadcast
  dsimp only
  rw [he]
  refine ⟨_, rfl, ?_⟩
  intro session
  rw [OrdMap.find_filterKey]
  by_cases hin : session ∈ s.subscribers.keys
  · rw [← hd.told session hin]
    by_cases hdrop : session ∈ remove
    · simp [hdrop]
    · simp [hdrop]
  · have hnone : s.subscribers.find? session = none := by
      by_contra hsome
      exact hin (OrdMap.mem_keys.mpr (Option.ne_none_iff_exists'.mp hsome))
    have hkeep : session ∉ remove := fun hx => hin (hd.among session hx)
    rw [if_pos (by simp [hkeep]), hd.others session hin, hnone]
    rfl

end broadcasts

/-! ## What is announced -/

/-- The runtime once an accepted command is recorded. -/
def recording (s : RuntimeState) (command : CommandEnvelope) : RuntimeState :=
  { s with
    table := s.table.accepting command
    acceptedEvents := s.acceptedEvents ++ [s.table.eventOf command] }

/-- A command of a connected session for its own seat that the authority accepts now. -/
structure Accepts (s : RuntimeState) (session : GuestSessionId) (command : CommandEnvelope) : Prop where
  connected : s.connectedBinding session = .ok ⟨.player command.payload.seat, true⟩
  recordable : s.table.Recordable command false
  current : command.expectedRevision = s.table.revision
  applies : (s.table.applyPayload command.payload).1 = .ok ()

/-- What a request announces, and the runtime it is announced from. -/
inductive Announces (s : RuntimeState) : RuntimeOp → SubscriptionReason → Option EventEnvelope → RuntimeState → Prop
  | acted (session : GuestSessionId) (command : CommandEnvelope) (seat : SeatId) (action : Action) :
      s.Accepts session command → command.payload = .act seat action →
      Announces s (.submit session command) .actionAccepted (some (s.table.eventOf command)) (s.recording command).rearmed
  | preferred (session : GuestSessionId) (command : CommandEnvelope) (seat : SeatId) (always : Bool) :
      s.Accepts session command → command.payload = .showdownPreference seat always →
      Announces s (.submit session command) .actionAccepted (some (s.table.eventOf command)) (s.recording command)
  | timedOut (now : Nat) (d : ActionDeadline) (action : Action) : s.nowTick ≤ now → s.deadline = some d → d.dueTick ≤ now →
      s.table.Recordable (s.timeoutCommand d action) true → (s.table.applyPayload (.act d.seat action)).1 = .ok () →
      Announces s (.advanceTime now) (.timeoutAction d.seat action) (some (s.table.eventOf (s.timeoutCommand d action)))
        (recording { s with nowTick := now } (s.timeoutCommand d action)).rearmed
  | warned (now : Nat) (d : ActionDeadline) : s.nowTick ≤ now → s.deadline = some d → now < d.dueTick → d.warningTick ≤ now →
      d.warningEmitted = false →
      Announces s (.advanceTime now) (.deadlineWarning d.seat (d.dueTick - now)) none
        { s with nowTick := now, deadline := some { d with warningEmitted := true } }
  | advanced (now : Nat) (event : EventEnvelope) (table : ProtocolAuthority) : s.table.advanceShowdown = (some event, table) →
      Announces s (.progressShowdown now) .actionAccepted (some event) (rearmed { s with
        table := table
        acceptedEvents := s.acceptedEvents ++ [event]
        nextShowdownStep := some (now + showdownStepMillis) })
  | left (session : GuestSessionId) (role : SessionRole) : s.sessions.find? session = some ⟨role, true⟩ →
      Announces s (.disconnect session) (.connectionStateChanged role.seat false) none { s with
        sessions := s.sessions.insert session ⟨role, false⟩
        subscribers := s.subscribers.erase session }
  | returned (session : GuestSessionId) (role : SessionRole) : s.sessions.find? session = some ⟨role, false⟩ →
      Announces s (.reconnect session) (.connectionStateChanged role.seat true) none
        { s with sessions := s.sessions.insert session ⟨role, true⟩ }

/-- Everything a request leaves. -/
inductive Performs (s : RuntimeState) : RuntimeOp → RuntimeState → Prop
  | announced {op : RuntimeOp} {reason : SubscriptionReason} {event : Option EventEnvelope} {s₁ : RuntimeState} :
      Announces s op reason event s₁ → Performs s op (s₁.broadcast reason event).2
  | unchanged (op : RuntimeOp) : Performs s op s
  | bound (session : GuestSessionId) (tableId : TableId) (handId : HandId) (role : SessionRole) :
      s.sessions.find? session = none →
      Performs s (.bind session tableId handId role) { s with sessions := s.sessions.insert session ⟨role, true⟩ }
  | refused (session : GuestSessionId) (command : CommandEnvelope) (entry : RecordedCommand) : s.table.Recordable command false →
      entry.outcome.commandId = some command.commandId →
      Performs s (.submit session command) { s with table := s.table.record command.commandId entry }
  | ticked (now : Nat) : s.nowTick ≤ now → Performs s (.advanceTime now) { s with nowTick := now }
  | paced (now : Nat) (next : Option Nat) : Performs s (.progressShowdown now) { s with nextShowdownStep := next }
  | subscribed (session : GuestSessionId) (binding : SessionBinding) (snapshot : SnapshotEnvelope) :
      s.connectedBinding session = .ok binding → s.subscribers.find? session = none →
      s.view binding.role.audience = .ok snapshot →
      Performs s (.subscribe session)
        { s with subscribers := s.subscribers.insert session ⟨[⟨s.streamSequence, .initial, none, snapshot, s.deadline⟩], true⟩ }
  | received (session : GuestSessionId) : Performs s (.receive session) ((RuntimeOp.receive session).apply s)
  | hungUp (session : GuestSessionId) : Performs s (.hangUp session) ((RuntimeOp.hangUp session).apply s)

/-- Everything a submission is answered. -/
inductive Submits (s : RuntimeState) (session : GuestSessionId) (command : CommandEnvelope) :
    Except AuthorizedTableError AuthorizedTableResponse × RuntimeState → Prop
  | failed (error : AuthorizedTableError) : Submits s session command (.error error, s)
  | answered (receipt : SubmissionReceipt) (snapshot : SnapshotEnvelope) (table : ProtocolAuthority) :
      receipt = (s.table.submitFrom command false).1 → receipt.acceptedNew = false →
      (table = s.table ∨ ∃ entry, s.table.Recordable command false ∧ entry.outcome.commandId = some command.commandId ∧
        table = s.table.record command.commandId entry) →
      view { s with table := table } (.player command.payload.seat) = .ok snapshot →
      Submits s session command (.ok ⟨receipt, snapshot, s.deadline, s.streamSequence⟩, { s with table := table })
  | accepted (snapshot : SnapshotEnvelope) (s₁ : RuntimeState) : s.Accepts session command →
      Announces s (.submit session command) .actionAccepted (some (s.table.eventOf command)) s₁ →
      s₁.view (.player command.payload.seat) = .ok snapshot →
      Submits s session command
        (.ok ⟨s.table.receipt (.accepted (s.table.eventOf command)) .processed, snapshot, s₁.deadline, s₁.streamSequence + 1⟩,
          (s₁.broadcast .actionAccepted (some (s.table.eventOf command))).2)

section performs
variable {c : HandConfig} {posted : Nat} {s s' : RuntimeState} {op : RuntimeOp} {reason : SubscriptionReason}
  {event : Option EventEnvelope} {session : GuestSessionId} {command : CommandEnvelope}

/-- The step of a showdown's clock is nobody's news. -/
theorem broadcast_paced (hb : s.Bound) (next : Option Nat) :
    { (s.broadcast reason event).2 with nextShowdownStep := next } =
      (broadcast { s with nextShowdownStep := next } reason event).2 := by
  obtain ⟨subscribers, he, htold⟩ := broadcast_told hb reason event
  obtain ⟨subscribers', he', htold'⟩ := @broadcast_told { s with nextShowdownStep := next } hb reason event
  have hsame : subscribers' = subscribers := OrdMap.ext_find fun session => (htold' session).trans (htold session).symm
  rw [he, he', hsame]

/-- An accepted command is announced from the runtime that recorded it. -/
theorem Accepts.published (ha : s.Accepts session command) : ∃ s₁,
    Announces s (.submit session command) .actionAccepted (some (s.table.eventOf command)) s₁ ∧
      RuntimeState.published { s with table := s.table.accepting command }
        (s.table.receipt (.accepted (s.table.eventOf command)) .processed) =
          s₁.broadcast .actionAccepted (some (s.table.eventOf command)) := by
  cases hpayload : command.payload with
  | act seat action =>
    refine ⟨_, .acted session command seat action ha hpayload, ?_⟩
    have hkind : (s.table.eventOf command).event.isAction = true := by
      simp [eventOf, hpayload, acceptedEvent, TableEvent.isAction]
    simp only [RuntimeState.published, SubmissionReceipt.acceptedEvent, receipt, Option.any_some, hkind, if_true,
      rescheduleDeadline_eq, Option.toList_some]
    congr 1
    unfold rearmed recording
    dsimp only
    cases (s.table.accepting command).hand.toAct <;> rfl
  | showdownPreference seat always =>
    refine ⟨_, .preferred session command seat always ha hpayload, ?_⟩
    have hkind : (s.table.eventOf command).event.isAction = false := by
      simp [eventOf, hpayload, acceptedEvent, TableEvent.isAction]
    simp only [RuntimeState.published, SubmissionReceipt.acceptedEvent, receipt, Option.any_some, hkind,
      Bool.false_eq_true, if_false, Option.toList_some]
    rfl

theorem connectedBinding_ok {binding : SessionBinding} (h : s.connectedBinding session = .ok binding) :
    s.sessions.find? session = some binding ∧ binding.connected = true := by
  unfold connectedBinding at h
  cases hf : s.sessions.find? session with
  | none => rw [hf] at h; cases h
  | some found =>
    rw [hf] at h
    dsimp only at h
    split at h
    · cases h
      exact ⟨rfl, ‹_›⟩
    · cases h

/-! Arming the deadline touches the deadline only. -/

@[simp] theorem rearmed_table (s : RuntimeState) : s.rearmed.table = s.table := by unfold rearmed; split <;> rfl

@[simp] theorem rearmed_sessions (s : RuntimeState) : s.rearmed.sessions = s.sessions := by unfold rearmed; split <;> rfl

@[simp] theorem rearmed_subscribers (s : RuntimeState) : s.rearmed.subscribers = s.subscribers := by unfold rearmed; split <;> rfl

@[simp] theorem rearmed_streamSequence (s : RuntimeState) : s.rearmed.streamSequence = s.streamSequence := by
  unfold rearmed; split <;> rfl

@[simp] theorem rearmed_acceptedEvents (s : RuntimeState) : s.rearmed.acceptedEvents = s.acceptedEvents := by
  unfold rearmed; split <;> rfl

/-- What is announced is a move of the game. -/
theorem Announces.serves {s₁ : RuntimeState} (ha : Announces s op reason event s₁) (hs : Serves c posted s) :
    Serves c posted s₁ := by
  have hconnection : ∀ session role connected, s.sessions.find? session = some ⟨role, !connected⟩ → ∀ subscribers,
      Serves c posted { s with sessions := s.sessions.insert session ⟨role, connected⟩, subscribers := subscribers } := by
    intro session role connected hf subscribers
    have hquiet : Quiet s { s with sessions := s.sessions.insert session ⟨role, connected⟩, subscribers := subscribers } := by
      refine ⟨rfl, rfl, rfl, fun other => ?_, rfl, rfl, rfl⟩
      rw [OrdMap.find_insert]
      split
      · rename_i he; rw [he, hf]; rfl
      · rfl
    exact hquiet.serves hs
  cases ha with
  | acted session command seat action ha hpayload =>
    exact (Core.acted command seat action ha.recordable ha.applies hpayload).serves hs
  | preferred session command seat always ha hpayload =>
    exact (Core.preferred command seat always ha.recordable ha.applies hpayload).serves hs
  | timedOut now d action hnow hd hdue hr hok =>
    have hclock : Quiet s { s with nowTick := now } := ⟨rfl, rfl, rfl, fun _ => rfl, rfl, rfl, rfl⟩
    have hcore := @Core.timedOut { s with nowTick := now } d (s.timeoutCommand d action) action hr hok rfl hd rfl
    exact hcore.serves (hclock.serves hs)
  | warned now d hnow hd _ _ _ =>
    have hquiet : Quiet s { s with nowTick := now, deadline := some { d with warningEmitted := true } } := by
      refine ⟨rfl, rfl, rfl, fun _ => rfl, ?_, rfl, rfl⟩
      rw [show s.deadline = some d from hd]
      rfl
    exact hquiet.serves hs
  | advanced now event table hadv =>
    have hclock : Quiet s { s with nextShowdownStep := some (now + showdownStepMillis) } :=
      ⟨rfl, rfl, rfl, fun _ => rfl, rfl, rfl, rfl⟩
    have hcore := @Core.advanced { s with nextShowdownStep := some (now + showdownStepMillis) } event table hadv
    exact hcore.serves (hclock.serves hs)
  | left session role hf => exact hconnection session role false hf _
  | returned session role hf => exact hconnection session role true hf _

theorem Announces.submitted {s₁ : RuntimeState} (ha : Announces s (.submit session command) reason event s₁) :
    s₁.table = s.table.accepting command ∧ s₁.streamSequence = s.streamSequence := by
  cases ha with
  | acted _ _ _ _ _ _ => simp [recording]
  | preferred _ _ _ _ _ _ => exact ⟨rfl, rfl⟩

/-- What a command comes to is recorded under its own id. -/
theorem execute_commandId (a : ProtocolAuthority) (envelope : CommandEnvelope) :
    (a.execute envelope).1.commandId = some envelope.commandId := by
  unfold ProtocolAuthority.execute
  split
  · rfl
  · split <;> rfl

/-- A submission is refused before the authority sees it, or the authority answers it. -/
theorem Serves.submits (hs : Serves c posted s) (session : GuestSessionId) (command : CommandEnvelope) :
    Submits s session command (s.submit session command) := by
  unfold RuntimeState.submit
  cases hb : s.connectedBinding session with
  | error error => exact .failed error
  | ok binding =>
    obtain ⟨hfind, hconnected⟩ := connectedBinding_ok hb
    obtain ⟨role, connected⟩ := binding
    obtain rfl : connected = true := hconnected
    cases role with
    | spectator => exact .failed _
    | player seat =>
      dsimp only
      split
      · exact .failed _
      split
      · exact .failed _
      split
      · exact .failed _
      rename_i hseat
      obtain rfl := not_not.mp hseat
      have hdealt : (c.seatStacks.lookup command.payload.seat).isSome = true := hs.bound session _ _ hfind rfl
      have hafter := apply_stage hs.stage (.submit command false)
      obtain ⟨_, hview, _⟩ := @snapshot_ok _ (.player command.payload.seat) fun p hp => by
        cases hp; exact (hs.stage.seated.1 _).mpr hdealt
      obtain ⟨snapshot, hview'⟩ : ∃ snapshot, (s.table.submitFrom command false).2.snapshot (.player command.payload.seat) =
          .ok snapshot := by
        obtain ⟨view, hview', _⟩ := @snapshot_ok _ (.player command.payload.seat) fun p hp => by
          cases hp; exact (hafter.seated.1 _).mpr hdealt
        exact ⟨_, hview'⟩
      have hanswers := s.table.submitFrom_answers command false
      unfold serve
      rw [hview]
      dsimp only
      rw [hview']
      have hreceipt : (s.table.submitFrom command false).1 = (s.table.submitFrom command false).1 := rfl
      generalize hanswer : s.table.submitFrom command false = answer at hanswers hview' ⊢
      cases hanswers with
      | unchanged receipt hold =>
        simp only [Except.map, hold, Bool.false_eq_true, if_false]
        refine .answered receipt _ s.table (by rw [hanswer]) hold (Or.inl rfl) ?_
        rw [RuntimeState.view, hview']
        rfl
      | refused receipt entry hr hold =>
        simp only [Except.map, hold, Bool.false_eq_true, if_false]
        have hentry : entry.outcome.commandId = some command.commandId := by
          have hledgers := congrArg (fun answer => answer.2.recordedCommands) (hanswer.symm.trans hr.submitFrom)
          obtain ⟨_, hlast⟩ := List.append_inj' hledgers rfl
          rw [(Prod.mk.inj (List.singleton_inj.mp hlast)).2]
          exact execute_commandId s.table command
        refine .answered receipt _ _ (by rw [hanswer]) hold (Or.inr ⟨entry, hr, hentry, rfl⟩) ?_
        show RuntimeState.view { s with table := s.table.record command.commandId entry } _ = _
        rw [RuntimeState.view, hview']
        rfl
      | accepted hr hrev hok =>
        have ha : s.Accepts session command := ⟨hb, hr, hrev, hok⟩
        obtain ⟨s₁, hannounced, hpublished⟩ := ha.published
        have hnew : (s.table.receipt (.accepted (s.table.eventOf command)) .processed).acceptedNew = true := by
          simp [SubmissionReceipt.acceptedNew, receipt, CommandOutcome.result]
        obtain ⟨htable, hsequence⟩ := hannounced.submitted
        obtain ⟨subscribers, he, _⟩ := broadcast_told (hannounced.serves hs).toBound .actionAccepted
          (some (s.table.eventOf command))
        have hlast := Submits.accepted snapshot s₁ ha hannounced (by rw [RuntimeState.view, htable, hview']; rfl)
        simp only [Except.map, hnew, if_true]
        rw [hpublished]
        rw [he] at hlast ⊢
        exact hlast

theorem Submits.performs {answer : Except AuthorizedTableError AuthorizedTableResponse × RuntimeState}
    (h : Submits s session command answer) : Performs s (.submit session command) answer.2 := by
  cases h with
  | failed error => exact .unchanged _
  | answered receipt snapshot table _ _ htable _ =>
    rcases htable with rfl | ⟨entry, hr, hentry, rfl⟩
    · exact .unchanged _
    · exact .refused session command entry hr hentry
  | accepted snapshot s₁ _ ha _ => exact .announced ha

theorem connects (s : RuntimeState) (session : GuestSessionId) (connected : Bool) :
    ∀ op, (op = .disconnect session ∧ connected = false) ∨ (op = .reconnect session ∧ connected = true) →
      Performs s op (op.apply s) := by
  intro op hop
  have hsame : op.apply s = s ∨ ∃ role, s.sessions.find? session = some ⟨role, !connected⟩ ∧ op.apply s =
      (broadcast { s with
        sessions := s.sessions.insert session ⟨role, connected⟩
        subscribers := if connected then s.subscribers else s.subscribers.erase session }
          (.connectionStateChanged role.seat connected) none).2 := by
    rcases hop with ⟨rfl, rfl⟩ | ⟨rfl, rfl⟩
    all_goals
      simp only [RuntimeOp.apply, disconnect, reconnect, setConnected]
      cases hf : s.sessions.find? session with
      | none => exact Or.inl rfl
      | some binding =>
        obtain ⟨role, now⟩ := binding
        cases now with
        | false => simp
        | true => simp
  rcases hsame with he | ⟨role, hf, he⟩
  · rw [he]; exact .unchanged op
  · rw [he]
    rcases hop with ⟨rfl, rfl⟩ | ⟨rfl, rfl⟩
    · exact .announced (.left session role hf)
    · exact .announced (.returned session role hf)

/-- A deadline that runs out announces what it did for its seat. -/
theorem Serves.expireDeadline_broadcasts (hs : Serves c posted s) {d : ActionDeadline} {legal : MultiwayLegalActions}
    {action : Action}
    (hd : s.deadline = some d) (hlegal : s.table.hand.legalActionsFor d.seat = some legal)
    (haction : timeoutAction legal = some action) (hvalid : s.table.hand.validateCommand ⟨d.seat, action⟩ = .ok ())
    (hr : s.table.Recordable (s.timeoutCommand d action) true) :
    (s.expireDeadline d).2 = ((s.recording (s.timeoutCommand d action)).rearmed.broadcast (.timeoutAction d.seat action)
      (some (s.table.eventOf (s.timeoutCommand d action)))).2 := by
  obtain ⟨snapshot, he⟩ := expireDeadline_submits hs hd hlegal haction
  have hok := applyPayload_valid hvalid
  have hcore := Core.timedOut d (s.timeoutCommand d action) action hr hok rfl hd rfl
  obtain ⟨subscribers, hb, _⟩ := broadcast_told (hcore.serves hs).toBound (.timeoutAction d.seat action)
    (some (s.table.eventOf (s.timeoutCommand d action)))
  rw [he, hr.submitFrom, execute_accepts rfl hok]
  simp only [SubmissionReceipt.acceptedNew, SubmissionReceipt.acceptedEvent, receipt, CommandOutcome.result, decide_true,
    Bool.and_self, rescheduleDeadline_eq]
  rw [recording, accepting]
  rw [accepting] at hb
  rw [hb]

theorem Serves.ticks (hs : Serves c posted s) (now : Nat) : Performs s (.advanceTime now) (s.advanceTime now).2 := by
  unfold advanceTime
  split
  · exact .unchanged _
  rename_i hnow
  have hclock : Quiet s { s with nowTick := now } := ⟨rfl, rfl, rfl, fun _ => rfl, rfl, rfl, rfl⟩
  have hserves := hclock.serves hs
  dsimp only
  split
  · exact .ticked now (Nat.not_lt.mp hnow)
  rename_i d hd
  split
  · rename_i hdue
    obtain ⟨legal, action, hlegal, haction, hvalid⟩ := hserves.choice hd
    by_cases hr : s.table.Recordable (s.timeoutCommand d action) true
    · rw [hserves.expireDeadline_broadcasts hd hlegal haction hvalid hr]
      exact .announced (.timedOut now d action (Nat.not_lt.mp hnow) hd hdue hr (applyPayload_valid hvalid))
    · rcases expireDeadline_cases hserves hd hlegal haction hvalid with ⟨_, he⟩ | ⟨hyes, _⟩
      · rw [he]
        exact .ticked now (Nat.not_lt.mp hnow)
      · exact absurd hyes hr
  rename_i hdue
  split
  · rename_i hwarn
    obtain ⟨hwarning, hfirst⟩ := (Bool.and_eq_true _ _).mp hwarn
    have ha := Announces.warned now d (Nat.not_lt.mp hnow) hd (Nat.not_le.mp hdue) (of_decide_eq_true hwarning)
        (by simpa using hfirst)
    obtain ⟨subscribers, hb, _⟩ := broadcast_told (ha.serves hs).toBound (.deadlineWarning d.seat (d.dueTick - now)) none
    have hlast := Performs.announced ha
    rw [hb] at hlast
    dsimp only at hb ⊢
    rw [hb]
    exact hlast
  · exact .ticked now (Nat.not_lt.mp hnow)

theorem Serves.paces (hs : Serves c posted s) (now : Nat) : Performs s (.progressShowdown now) (s.progressShowdown now).2 := by
  obtain ⟨envelope, hview, _, _, _⟩ := s.view_spectator
  unfold progressShowdown
  rw [hview]
  dsimp only
  cases envelope.snapshot.showdown with
  | none => exact .paced now none
  | some progress =>
    dsimp only
    split
    · exact .paced now _
    cases hadv : s.table.advanceShowdown with
    | mk event table =>
      cases event with
      | none =>
        have hsame : table = s.table := by
          rcases s.table.advanceShowdown_cases with he | ⟨_, _, he⟩
          · rw [he] at hadv; cases hadv; rfl
          · rw [he] at hadv; cases hadv
        subst hsame
        exact .paced now _
      | some event =>
        have ha := Announces.advanced now event table hadv
        have hserves : Serves c posted (rearmed { s with
            table := table
            acceptedEvents := s.acceptedEvents ++ [event]
            nextShowdownStep := some (s.nextShowdownStep.getD (now + showdownStepMillis)) }) := by
          have hclock : Quiet s { s with nextShowdownStep := some (s.nextShowdownStep.getD (now + showdownStepMillis)) } :=
            ⟨rfl, rfl, rfl, fun _ => rfl, rfl, rfl, rfl⟩
          have hcore := @Core.advanced { s with nextShowdownStep := some (s.nextShowdownStep.getD (now + showdownStepMillis)) }
            event table hadv
          exact hcore.serves (hclock.serves hs)
        obtain ⟨subscribers, hb, _⟩ := broadcast_told hserves.toBound .actionAccepted (some event)
        have hpaced := @broadcast_paced _ .actionAccepted (some event) hserves.toBound (some (now + showdownStepMillis))
        dsimp only
        rw [rescheduleDeadline_eq]
        dsimp only
        have hlast := Performs.announced ha
        rw [hb] at hpaced ⊢
        dsimp only at hpaced ⊢
        rw [hpaced]
        convert hlast using 3
        unfold rearmed
        dsimp only
        cases table.hand.toAct <;> rfl

theorem Serves.performs (hs : Serves c posted s) (op : RuntimeOp) : Performs s op (op.apply s) := by
  cases op with
  | bind session tableId handId role =>
    simp only [RuntimeOp.apply, RuntimeState.bind]
    split
    · exact .unchanged _
    split
    · exact .unchanged _
    split
    · exact .unchanged _
    rename_i hin
    have hnew : s.sessions.find? session = none := by simpa [OrdMap.contains] using hin
    cases role with
    | spectator => exact .bound session tableId handId .spectator hnew
    | player seat =>
      dsimp only
      split
      · exact .unchanged _
      split
      · exact .unchanged _
      · exact .bound session tableId handId (.player seat) hnew
  | submit session command => exact (hs.submits session command).performs
  | subscribe session =>
    simp only [RuntimeOp.apply, RuntimeState.subscribe]
    cases hb : s.connectedBinding session with
    | error error => exact .unchanged _
    | ok binding =>
      dsimp only
      by_cases hin : s.subscribers.contains session = true
      · rw [if_pos hin]
        exact .unchanged _
      rw [if_neg hin]
      cases hview : s.view binding.role.audience with
      | error error => exact .unchanged _
      | ok snapshot =>
        refine .subscribed session binding snapshot hb ?_ hview
        simpa [OrdMap.contains] using hin
  | receive session => exact .received session
  | hangUp session => exact .hungUp session
  | disconnect session => exact s.connects session false _ (Or.inl ⟨rfl, rfl⟩)
  | reconnect session => exact s.connects session true _ (Or.inr ⟨rfl, rfl⟩)
  | advanceTime now => exact hs.ticks now
  | progressShowdown now => exact hs.paces now

end performs

end RuntimeState

end OpenFelt
