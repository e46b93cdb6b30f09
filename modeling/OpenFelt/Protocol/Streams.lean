/-
  OpenFelt.Protocol.Streams — what a subscriber hears.

  Proved, of every runtime reached by any requests (`run_streams`): the updates a live
  subscription receives carry consecutive numbers from its initial one on, their
  revisions never fall, and the events in them are the events accepted meanwhile, each
  once and in order. What a broadcast cannot deliver ends the subscription.
-/

import OpenFelt.Protocol.Announcements

namespace OpenFelt

open MultiwayHand (Stage HandStarts)

namespace RuntimeState

open ProtocolAuthority

/-! ## One request -/

/-- What a broadcast leaves of one subscription: the update put last, or nothing. -/
inductive Delivery (s' : RuntimeState) (reason : SubscriptionReason) (event : Option EventEnvelope) (session : GuestSessionId)
    (subscriber : Subscriber) : Option Subscriber → Prop
  | sent (binding : SessionBinding) (snapshot : SnapshotEnvelope) : s'.sessions.find? session = some binding →
      binding.connected = true → subscriber.listening = true → subscriber.updates.length < subscriptionBufferCapacity →
      s'.view binding.role.audience = .ok snapshot →
      Delivery s' reason event session subscriber (some { subscriber with
        updates := subscriber.updates ++ [⟨s'.streamSequence, reason, event, snapshot, s'.deadline⟩] })
  | dropped : ((∀ binding, s'.sessions.find? session = some binding → binding.connected = false) ∨
      subscriber.listening = false ∨ subscriptionBufferCapacity ≤ subscriber.updates.length) →
      Delivery s' reason event session subscriber none

/-- What a request does to the subscriptions: nothing to those of others, the hand being as it
    was, or one broadcast to every one of them. -/
inductive Relay (s : RuntimeState) (op : RuntimeOp) (s' : RuntimeState) : Prop
  | silent : s'.streamSequence = s.streamSequence → s'.acceptedEvents = s.acceptedEvents →
      s'.table.revision = s.table.revision → s'.table.hand = s.table.hand →
      (∀ session, op ≠ .subscribe session → op ≠ .receive session → op ≠ .hangUp session →
        s'.subscribers.find? session = s.subscribers.find? session) → Relay s op s'
  | broadcast (reason : SubscriptionReason) (event : Option EventEnvelope) : s'.streamSequence = s.streamSequence + 1 →
      s'.acceptedEvents = s.acceptedEvents ++ event.toList →
      (∀ session, s.subscribers.find? session = none → s'.subscribers.find? session = none) →
      (∀ session subscriber, s.subscribers.find? session = some subscriber →
        Delivery s' reason event session subscriber (s'.subscribers.find? session)) → Relay s op s'

section streams
variable {c : HandConfig} {h : MultiwayHand} {posted : Nat} {s s' s₁ : RuntimeState} {op : RuntimeOp}
  {reason : SubscriptionReason} {event : Option EventEnvelope} {session : GuestSessionId} {subscriber : Subscriber}

/-- A subscription is told in full, or ends. -/
theorem told_delivers (s : RuntimeState) (reason : SubscriptionReason) (event : Option EventEnvelope) (hb : s.Bound)
    (session : GuestSessionId) (subscriber : Subscriber) (subscribers : OrdMap GuestSessionId Subscriber) :
    Delivery { s with streamSequence := s.streamSequence + 1, subscribers := subscribers } reason event session subscriber
      (s.told reason event session subscriber) := by
  unfold told
  cases hf : s.sessions.find? session with
  | none =>
    refine .dropped (Or.inl fun binding hbinding => ?_)
    rw [show s.sessions.find? session = some binding from hbinding] at hf
    cases hf
  | some binding =>
    dsimp only
    by_cases hconnected : binding.connected = true
    swap
    · rw [if_pos (by simp [hconnected])]
      refine .dropped (Or.inl fun found hfound => ?_)
      obtain rfl := Option.some.inj (hf.symm.trans hfound)
      simpa using hconnected
    rw [if_neg (by simp [hconnected])]
    obtain ⟨view, hview, _⟩ := hb.view hf
    rw [hview]
    dsimp only
    unfold trySend
    by_cases hroom : subscriber.listening = true ∧ subscriber.updates.length < subscriptionBufferCapacity
    · rw [if_pos (by simp [hroom])]
      exact .sent binding _ hf hconnected hroom.1 hroom.2 hview
    · rw [if_neg (by simpa using hroom)]
      refine .dropped (Or.inr ?_)
      cases hlistening : subscriber.listening with
      | false => exact Or.inl rfl
      | true => exact Or.inr (Nat.not_lt.mp fun hlt => hroom ⟨hlistening, hlt⟩)

/-- What is announced keeps the number of the last broadcast, and ends at most the
    subscription of a session that leaves. -/
theorem Announces.before (ha : Announces s op reason event s₁) : s₁.streamSequence = s.streamSequence ∧
    s₁.acceptedEvents = s.acceptedEvents ++ event.toList ∧
    ∀ session, s₁.subscribers.find? session = s.subscribers.find? session ∨
      s₁.subscribers.find? session = none ∧ ∀ binding, s₁.sessions.find? session = some binding → binding.connected = false := by
  cases ha with
  | acted _ _ _ _ _ _ => simp [recording]
  | preferred _ _ _ _ _ _ => exact ⟨rfl, rfl, fun _ => Or.inl rfl⟩
  | timedOut _ _ _ _ _ _ _ _ => simp [recording]
  | warned _ _ _ _ _ _ _ => exact ⟨rfl, (List.append_nil _).symm, fun _ => Or.inl rfl⟩
  | advanced _ _ _ _ => simp
  | left session role hf =>
    refine ⟨rfl, (List.append_nil _).symm, fun other => ?_⟩
    by_cases he : other = session
    · subst he
      refine Or.inr ⟨OrdMap.find_erase_self, fun binding hbinding => ?_⟩
      rw [OrdMap.find_insert_self] at hbinding
      cases hbinding
      rfl
    · exact Or.inl (OrdMap.find_erase_ne he)
  | returned session role hf => exact ⟨rfl, (List.append_nil _).symm, fun _ => Or.inl rfl⟩

theorem Performs.relays (hp : Performs s op s') (hs : Serves c posted s) : Relay s op s' := by
  cases hp with
  | @announced _ reason event s₁ ha =>
    obtain ⟨hsequence, hevents, hsubscribers⟩ := ha.before
    have hb := (ha.serves hs).toBound
    obtain ⟨subscribers, he, htold⟩ := broadcast_told hb reason event
    rw [he]
    refine .broadcast reason event (by rw [hsequence]) hevents ?_ ?_
    · intro session hnone
      rw [htold]
      rcases hsubscribers session with hsame | ⟨hgone, _⟩
      · rw [hsame, hnone]; rfl
      · rw [hgone]; rfl
    · intro session subscriber hsome
      rw [htold]
      rcases hsubscribers session with hsame | ⟨hgone, hleft⟩
      · rw [hsame, hsome]
        exact told_delivers s₁ reason event hb session subscriber subscribers
      · rw [hgone]
        exact .dropped (Or.inl hleft)
  | unchanged | bound | refused | ticked | paced => exact .silent rfl rfl rfl rfl fun _ _ _ _ => rfl
  | subscribed session binding snapshot =>
    refine .silent rfl rfl rfl rfl fun other hother _ _ => OrdMap.find_insert_ne ?_
    rintro rfl
    exact hother rfl
  | received session =>
    refine .silent rfl rfl rfl rfl fun other _ hother _ => ?_
    simp only [RuntimeOp.apply, OrdMap.find_modify]
    rw [if_neg fun he => hother (by rw [he])]
  | hungUp session =>
    refine .silent rfl rfl rfl rfl fun other _ _ hother => ?_
    simp only [RuntimeOp.apply, OrdMap.find_modify]
    rw [if_neg fun he => hother (by rw [he])]

/-- The authority's revision never falls. -/
theorem Performs.revision (hp : Performs s op s') (hs : Serves c posted s) : s.table.revision ≤ s'.table.revision := by
  cases hp with
  | @announced _ reason event s₁ ha =>
    obtain ⟨subscribers, he, _⟩ := broadcast_told (ha.serves hs).toBound reason event
    rw [he]
    cases ha with
    | acted _ command _ _ _ _ =>
      simp only [rearmed_table, recording]
      exact Nat.le_succ _
    | preferred _ command _ _ _ _ => exact Nat.le_succ _
    | timedOut _ _ _ _ _ _ _ _ =>
      simp only [rearmed_table, recording]
      exact Nat.le_succ _
    | advanced _ _ table hadv =>
      simp only [rearmed_table]
      unfold ProtocolAuthority.advanceShowdown at hadv
      split at hadv
      · cases hadv
      · cases hadv
        exact Nat.le_succ _
    | warned | left | returned => exact Nat.le_refl _
  | refused | unchanged | bound | ticked | paced | subscribed | received | hungUp => exact Nat.le_refl _

/-- A view states the revision it was taken at. -/
theorem view_revision {audience : ProjectionAudience} {snapshot : SnapshotEnvelope} (h : s.view audience = .ok snapshot) :
    snapshot.revision = s.table.revision := by
  unfold RuntimeState.view ProtocolAuthority.snapshot at h
  cases hp : s.table.hand.projectHand s.table.handId audience with
  | error error => rw [hp] at h; cases h
  | ok view => rw [hp] at h; cases h; rfl

/-! ## Runs -/

/-- What a session's channel holds. -/
def channel (s : RuntimeState) (session : GuestSessionId) : List SubscriptionUpdate :=
  ((s.subscribers.find? session).map (·.updates)).getD []

/-- What a session takes out of its channel during a request. -/
def takes (s : RuntimeState) (session : GuestSessionId) (op : RuntimeOp) : List SubscriptionUpdate :=
  if op = .receive session then (s.channel session).take 1 else []

/-- What a session receives during a run, in order. -/
def received (s : RuntimeState) (session : GuestSessionId) : List RuntimeOp → List SubscriptionUpdate
  | [] => []
  | op :: ops => s.takes session op ++ (op.apply s).received session ops

/-- The session's subscription lasts through the run. -/
def Live (s : RuntimeState) (session : GuestSessionId) : List RuntimeOp → Prop
  | [] => (s.subscribers.find? session).isSome = true
  | op :: ops => (s.subscribers.find? session).isSome = true ∧ (op.apply s).Live session ops

/-- What is put into a channel between two states of the runtime. -/
structure Puts (s s' : RuntimeState) (updates : List SubscriptionUpdate) : Prop where
  numbered : updates.map (·.streamSequence) = List.range' (s.streamSequence + 1) updates.length
  last : s'.streamSequence = s.streamSequence + updates.length
  events : s'.acceptedEvents = s.acceptedEvents ++ updates.filterMap (·.event)
  revisions : (updates.map (·.snapshot.revision)).Pairwise (· ≤ ·)
  bounds : ∀ update ∈ updates, s.table.revision ≤ update.snapshot.revision ∧ update.snapshot.revision ≤ s'.table.revision

theorem Live.head {ops : List RuntimeOp} (hl : s.Live session ops) :
    ∃ subscriber, s.subscribers.find? session = some subscriber := by
  cases ops with
  | nil => exact Option.isSome_iff_exists.mp hl
  | cons op ops => exact Option.isSome_iff_exists.mp hl.1

theorem Puts.none (hsequence : s'.streamSequence = s.streamSequence) (hevents : s'.acceptedEvents = s.acceptedEvents) :
    Puts s s' [] :=
  ⟨rfl, hsequence, by rw [hevents]; exact (List.append_nil _).symm, .nil, fun _ hu => absurd hu List.not_mem_nil⟩

theorem Puts.append {updates more : List SubscriptionUpdate} {s'' : RuntimeState} (hp : Puts s s' updates) (hq : Puts s' s'' more)
    (hle : s.table.revision ≤ s'.table.revision) (hle' : s'.table.revision ≤ s''.table.revision) :
    Puts s s'' (updates ++ more) := by
  refine ⟨?_, ?_, ?_, ?_, ?_⟩
  · rw [List.map_append, hp.numbered, hq.numbered, hp.last, List.length_append, ← List.range'_append]
    congr 2
    omega
  · rw [hq.last, hp.last, List.length_append]
    omega
  · rw [hq.events, hp.events, List.filterMap_append, List.append_assoc]
  · rw [List.map_append]
    refine List.pairwise_append.mpr ⟨hp.revisions, hq.revisions, ?_⟩
    intro a ha b hb
    obtain ⟨u, hu, rfl⟩ := List.mem_map.mp ha
    obtain ⟨v, hv, rfl⟩ := List.mem_map.mp hb
    exact Nat.le_trans (hp.bounds u hu).2 (hq.bounds v hv).1
  · intro update hu
    rcases List.mem_append.mp hu with hu | hu
    · exact ⟨(hp.bounds update hu).1, Nat.le_trans (hp.bounds update hu).2 hle'⟩
    · exact ⟨Nat.le_trans hle (hq.bounds update hu).1, (hq.bounds update hu).2⟩

/-- What one request takes out of a live channel and leaves in it. An update shows the
    session what it would be shown if it asked. -/
theorem Serves.puts (hs : Serves c posted s) (op : RuntimeOp) (hsome : s.subscribers.find? session = some subscriber)
    (hsome' : ((op.apply s).subscribers.find? session).isSome = true) : ∃ updates,
    s.takes session op ++ (op.apply s).channel session = s.channel session ++ updates ∧ Puts s (op.apply s) updates ∧
      ∀ update ∈ updates, (op.apply s).boundSnapshot session = .ok update.snapshot := by
  have hp := hs.performs op
  have hchannel : s.channel session = subscriber.updates := by rw [channel, hsome]; rfl
  by_cases hreceive : op = .receive session
  · subst hreceive
    refine ⟨[], ?_, .none rfl rfl, fun _ hu => absurd hu List.not_mem_nil⟩
    have hleft : ((RuntimeOp.receive session).apply s).channel session = subscriber.updates.tail := by
      simp only [channel, RuntimeOp.apply, OrdMap.find_modify, if_true, hsome]
      rfl
    rw [takes, if_pos rfl, hchannel, hleft, List.append_nil]
    cases subscriber.updates <;> rfl
  rw [takes, if_neg hreceive, List.nil_append]
  by_cases hhang : op = .hangUp session
  · subst hhang
    refine ⟨[], ?_, .none rfl rfl, fun _ hu => absurd hu List.not_mem_nil⟩
    have hleft : ((RuntimeOp.hangUp session).apply s).channel session = subscriber.updates := by
      simp only [channel, RuntimeOp.apply, OrdMap.find_modify, if_true, hsome]
      rfl
    rw [hchannel, hleft, List.append_nil]
  have hrevision := hp.revision hs
  have hrelay := hp.relays hs
  have hsubscribe : op = .subscribe session → op.apply s = s := by
    rintro rfl
    cases hp' : s.connectedBinding session with
    | error error => simp only [RuntimeOp.apply, RuntimeState.subscribe, hp']
    | ok binding =>
      have hin : s.subscribers.contains session = true := by rw [OrdMap.contains, hsome]; rfl
      simp only [RuntimeOp.apply, RuntimeState.subscribe, hp', hin, if_true]
  generalize op.apply s = s' at hsome' hrevision hrelay hsubscribe ⊢
  cases hrelay with
  | silent hsequence hevents _ _ hothers =>
    refine ⟨[], ?_, .none hsequence hevents, fun _ hu => absurd hu List.not_mem_nil⟩
    rw [List.append_nil]
    by_cases hsub : op = .subscribe session
    · rw [hsubscribe hsub]
    · rw [channel, hothers session hsub hreceive hhang, ← channel]
  | broadcast reason event hsequence hevents _ hdeliver =>
    have hd := hdeliver session subscriber hsome
    obtain ⟨left, hleft⟩ := Option.isSome_iff_exists.mp hsome'
    have hchannel' : s'.channel session = left.updates := by rw [channel, hleft]; rfl
    rw [hleft] at hd
    rw [hchannel, hchannel']
    cases hd with
    | sent binding snapshot hbinding hconnected hlistening hroom hview =>
      have hrev := view_revision hview
      have hshown : s'.boundSnapshot session = .ok snapshot := by rw [boundSnapshot, hbinding]; exact hview
      refine ⟨[⟨s'.streamSequence, reason, event, snapshot, s'.deadline⟩], rfl,
        ⟨?_, hsequence, ?_, List.pairwise_singleton _ _, ?_⟩,
        fun update hu => by rw [List.mem_singleton.mp hu]; exact hshown⟩
      · simp [hsequence]
      · rw [hevents]
        cases event <;> rfl
      · intro update hu
        rw [List.mem_singleton.mp hu]
        exact ⟨by rw [hrev]; exact hrevision, Nat.le_of_eq hrev⟩

/-- What a live subscription is sent during a run. -/
theorem Serves.run_puts (hs : Serves c posted s) (ops : List RuntimeOp) (hl : s.Live session ops) : ∃ updates,
    s.received session ops ++ (s.run ops).channel session = s.channel session ++ updates ∧ Puts s (s.run ops) updates ∧
      s.table.revision ≤ (s.run ops).table.revision := by
  induction ops generalizing s with
  | nil => exact ⟨[], (List.append_nil _).symm, .none rfl rfl, Nat.le_refl _⟩
  | cons op ops ih =>
    obtain ⟨subscriber, hsome⟩ := hl.head
    obtain ⟨subscriber', hsome'⟩ := hl.2.head
    obtain ⟨first, he, hfirst, _⟩ := hs.puts op hsome (by rw [hsome']; rfl)
    obtain ⟨rest, he', hrest, hle'⟩ := ih ((hs.apply op).serves hs) hl.2
    have hle := (hs.performs op).revision hs
    refine ⟨first ++ rest, ?_, hfirst.append hrest hle hle', Nat.le_trans hle hle'⟩
    show s.takes session op ++ (op.apply s).received session ops ++ ((op.apply s).run ops).channel session = _
    rw [List.append_assoc, he', ← List.append_assoc, he, List.append_assoc]

/-- What a new subscription receives while it lasts: its initial update, and from there on
    every broadcast. -/
def Gapless (s : RuntimeState) (session : GuestSessionId) (ops : List RuntimeOp) : Prop :=
  ∃ initial updates, s.received session ops ++ (s.run ops).channel session = initial :: updates ∧
    initial.reason = .initial ∧ initial.streamSequence = s.streamSequence ∧ Puts s (s.run ops) updates ∧
      ((initial :: updates).map (·.snapshot.revision)).Pairwise (· ≤ ·)

/-- The subscriptions of a runtime have no gaps. -/
structure Streams (s : RuntimeState) : Prop where
  requests : ∀ op, Relay s op (op.apply s)
  /-- A submission that fails, is rejected or replayed is nobody's news. -/
  refusals : ∀ session command,
    (∀ response, (s.submit session command).1 = .ok response → response.receipt.acceptedNew = false) →
    (s.submit session command).2.streamSequence = s.streamSequence ∧ (s.submit session command).2.subscribers = s.subscribers ∧
      (s.submit session command).2.acceptedEvents = s.acceptedEvents
  /-- A submission accepted now is one broadcast of its event. -/
  acceptances : ∀ session command response, (s.submit session command).1 = .ok response → response.receipt.acceptedNew = true →
    ∃ event, response.receipt.outcome = .accepted event ∧
      (s.submit session command).2.acceptedEvents = s.acceptedEvents ++ [event] ∧
      (s.submit session command).2.streamSequence = s.streamSequence + 1
  subscriptions : ∀ session s₀, s.subscribe session = (.ok (), s₀) → ∀ ops, s₀.Live session ops → s₀.Gapless session ops

/-- A new subscription holds its initial update. -/
theorem subscribe_ok {s₀ : RuntimeState} (h : s.subscribe session = (.ok (), s₀)) : ∃ binding snapshot,
    s.connectedBinding session = .ok binding ∧ s.view binding.role.audience = .ok snapshot ∧
      s₀ = { s with
        subscribers := s.subscribers.insert session
          ⟨[⟨s.streamSequence, .initial, none, snapshot, s.deadline⟩], true⟩ } := by
  unfold RuntimeState.subscribe at h
  cases hb : s.connectedBinding session with
  | error error => rw [hb] at h; cases h
  | ok binding =>
    rw [hb] at h
    dsimp only at h
    split at h
    · cases h
    cases hview : s.view binding.role.audience with
    | error error => rw [hview] at h; cases h
    | ok snapshot =>
      rw [hview] at h
      cases h
      exact ⟨binding, snapshot, rfl, hview, rfl⟩

theorem Serves.gapless (hs : Serves c posted s) {s₀ : RuntimeState} (hsub : s.subscribe session = (.ok (), s₀))
    {ops : List RuntimeOp} (hl : s₀.Live session ops) : s₀.Gapless session ops := by
  have hserves : Serves c posted s₀ := by
    have := (hs.apply (.subscribe session)).serves hs
    rwa [show (RuntimeOp.subscribe session).apply s = s₀ by rw [RuntimeOp.apply, hsub]] at this
  obtain ⟨initial, hchannel, hreason, hsequence, hrevision⟩ : ∃ initial, s₀.channel session = [initial] ∧
      initial.reason = .initial ∧ initial.streamSequence = s₀.streamSequence ∧ initial.snapshot.revision = s₀.table.revision := by
    obtain ⟨binding, snapshot, _, hview, rfl⟩ := subscribe_ok hsub
    have hrevision : snapshot.revision = s.table.revision := view_revision hview
    exact ⟨_, by rw [channel, OrdMap.find_insert_self]; rfl, rfl, rfl, hrevision⟩
  obtain ⟨updates, he, hputs, _⟩ := hserves.run_puts ops hl
  refine ⟨initial, updates, by rw [he, hchannel]; rfl, hreason, hsequence, hputs, ?_⟩
  rw [List.map_cons, List.pairwise_cons]
  refine ⟨?_, hputs.revisions⟩
  intro revision hmem
  obtain ⟨update, hu, rfl⟩ := List.mem_map.mp hmem
  rw [hrevision]
  exact (hputs.bounds update hu).1

theorem Serves.streams (hs : Serves c posted s) : s.Streams where
  requests := fun op => (hs.performs op).relays hs
  refusals := by
    intro session command hold
    have hsubmits := hs.submits session command
    generalize s.submit session command = answer at hsubmits hold ⊢
    cases hsubmits with
    | failed error => exact ⟨rfl, rfl, rfl⟩
    | answered receipt snapshot table _ _ _ _ => exact ⟨rfl, rfl, rfl⟩
    | accepted snapshot s₁ _ _ _ =>
      have := hold _ rfl
      simp [SubmissionReceipt.acceptedNew, receipt, CommandOutcome.result] at this
  acceptances := by
    intro session command response hresponse hnew
    have hsubmits := hs.submits session command
    generalize s.submit session command = answer at hsubmits hresponse ⊢
    cases hsubmits with
    | failed error => cases hresponse
    | answered receipt snapshot table _ hold _ _ =>
      cases hresponse
      rw [hold] at hnew
      cases hnew
    | accepted snapshot s₁ _ ha _ =>
      cases hresponse
      obtain ⟨hsequence, hevents, _⟩ := ha.before
      obtain ⟨subscribers, hb, _⟩ := broadcast_told (ha.serves hs).toBound .actionAccepted (some (s.table.eventOf command))
      rw [hb]
      exact ⟨s.table.eventOf command, rfl, hevents, by rw [hsequence]⟩
  subscriptions := fun session s₀ hsub ops hl => hs.gapless hsub hl

/-- Whatever is asked of the runtime of a hand, and in whatever order, its subscriptions
    have no gaps. -/
theorem run_streams (hstarts : HandStarts c h) (tableId : TableId) (handId : HandId) (ops : List RuntimeOp) :
    ((spawn (.new tableId handId h)).run ops).Streams :=
  ((spawn_serves hstarts).1.run ops).streams

/-- The player to act joins, subscribes and raises. -/
def watchedRaise : List RuntimeOp :=
  [.bind ⟨"guest"⟩ ⟨1⟩ ⟨1⟩ (.player 0), .subscribe ⟨"guest"⟩,
    .submit ⟨"guest"⟩ ⟨protocolVersion, "raise", ⟨1⟩, ⟨1⟩, 0, .act 0 (.raise 10)⟩]

/-- The channel then holds the initial update and the raise. -/
theorem run_streams_three : ∃ h, HandStarts threeHanded h ∧
    (((spawn (.new ⟨1⟩ ⟨1⟩ h)).run watchedRaise).channel ⟨"guest"⟩).map (fun update => (update.reason, update.streamSequence)) =
      [(.initial, 0), (.actionAccepted, 1)] ∧
    ((spawn (.new ⟨1⟩ ⟨1⟩ h)).run watchedRaise).acceptedEvents.length = 1 ∧
      ((spawn (.new ⟨1⟩ ⟨1⟩ h)).run watchedRaise).Streams := by
  have hrun : (threeHanded.build.toOption.map fun h =>
      let s := (spawn (.new ⟨1⟩ ⟨1⟩ { h with pacedShowdown := false })).run watchedRaise
      ((s.channel ⟨"guest"⟩).map fun update => (update.reason, update.streamSequence), s.acceptedEvents.length)) =
      some ([(.initial, 0), (.actionAccepted, 1)], 1) := by
    decide +kernel
  cases hbuild : threeHanded.build with
  | error error => rw [hbuild] at hrun; cases hrun
  | ok start =>
    rw [hbuild] at hrun
    obtain ⟨hchannel, hevents⟩ := Prod.mk.inj (Option.some.inj hrun)
    have hs : HandStarts threeHanded { start with pacedShowdown := false } := ⟨⟨.refl _, rfl⟩, start, false, hbuild, rfl⟩
    exact ⟨_, hs, hchannel, hevents, run_streams hs ⟨1⟩ ⟨1⟩ watchedRaise⟩

end streams

end RuntimeState

end OpenFelt
