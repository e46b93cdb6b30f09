/-
  OpenFelt.Client.Overtaken — when every message of an honest server is accepted.

  A broadcast of another party's transition that reaches a client between its command
  and the response makes the client forget the command, and then it takes the response
  for a protocol violation (`overtaken_command_fails`). Proved, of every run of any
  number of connections at one table (`run_accepts`): as long as no command is overtaken
  so, every message delivered is accepted.
-/

import OpenFelt.Client.Connections
import OpenFelt.Client.Cuts

namespace OpenFelt

open MultiwayHand (HandStarts)

/-! ## What the runtime shows -/

/-- A view of a table that was shown to `audience`, now or earlier. -/
structure Shown (table : ProtocolAuthority) (audience : ProjectionAudience) (snapshot : SnapshotEnvelope) : Prop where
  version : snapshot.version = protocolVersion
  tableId : snapshot.tableId = table.tableId
  handId : snapshot.handId = table.handId
  audience : snapshot.snapshot.audience = audience
  revision : snapshot.revision ≤ table.revision

/-- The same hand of the same table, later. -/
structure SameHand (table table' : ProtocolAuthority) : Prop where
  tableId : table'.tableId = table.tableId
  handId : table'.handId = table.handId
  revision : table.revision ≤ table'.revision

theorem Shown.later {table table' : ProtocolAuthority} {audience : ProjectionAudience} {snapshot : SnapshotEnvelope}
    (h : Shown table audience snapshot) (hs : SameHand table table') : Shown table' audience snapshot :=
  ⟨h.version, h.tableId.trans hs.tableId.symm, h.handId.trans hs.handId.symm, h.audience, Nat.le_trans h.revision hs.revision⟩

/-- A client accepts what is shown to its own audience. -/
theorem Shown.validates {table : ProtocolAuthority} {audience : ProjectionAudience} {snapshot : SnapshotEnvelope}
    {client : ProjectionClient} (h : Shown table audience client.snapshot) (hs : Shown table audience snapshot) :
    client.validateIdentityAndAudience snapshot = .ok () := by
  unfold ProjectionClient.validateIdentityAndAudience validateVersion
  rw [if_neg (not_not_intro hs.version)]
  dsimp only
  rw [if_neg, if_neg]
  · exact not_not_intro (hs.audience.trans h.audience.symm)
  · rintro (hne | hne)
    · exact hne (hs.tableId.trans h.tableId.symm)
    · exact hne (hs.handId.trans h.handId.symm)

namespace RuntimeState

open ProtocolAuthority

section shown
variable {c : HandConfig} {posted : Nat} {s s' s₁ : RuntimeState} {op : RuntimeOp} {session : GuestSessionId}
  {audience : ProjectionAudience} {snapshot : SnapshotEnvelope} {binding : SessionBinding} {reason : SubscriptionReason}
  {event : Option EventEnvelope}

theorem view_shown (h : s.view audience = .ok snapshot) : Shown s.table audience snapshot := by
  unfold RuntimeState.view ProtocolAuthority.snapshot at h
  cases hp : s.table.hand.projectHand s.table.handId audience with
  | error error => rw [hp] at h; cases h
  | ok view =>
    rw [hp] at h
    cases h
    refine ⟨rfl, rfl, rfl, ?_, Nat.le_refl _⟩
    unfold MultiwayHand.projectHand at hp
    split at hp
    · cases hp
    · rw [← Except.ok.inj hp]

theorem advanceShowdown_same {a next : ProtocolAuthority} {e : EventEnvelope} (h : a.advanceShowdown = (some e, next)) :
    SameHand a next ∧ e.revision = next.revision := by
  unfold ProtocolAuthority.advanceShowdown at h
  split at h
  · cases h
  · cases h
    exact ⟨⟨rfl, rfl, Nat.le_succ _⟩, rfl⟩

/-- What is announced is of the same hand, and an event states the revision it made. -/
theorem Announces.hand (ha : Announces s op reason event s₁) : SameHand s.table s₁.table ∧
    ∀ e, event = some e → e.revision = s₁.table.revision := by
  have haccepting : ∀ command, SameHand s.table (s.table.accepting command) := fun command => ⟨rfl, rfl, Nat.le_succ _⟩
  cases ha with
  | acted _ command _ _ _ _ | timedOut _ _ _ _ _ _ _ _ =>
    simp only [rearmed_table, recording]
    exact ⟨haccepting _, fun e he => by cases he; rfl⟩
  | preferred _ command _ _ _ _ => exact ⟨haccepting command, fun e he => by cases he; rfl⟩
  | advanced now e table hadv =>
    simp only [rearmed_table]
    obtain ⟨hsame, hrevision⟩ := advanceShowdown_same hadv
    exact ⟨hsame, fun e' he => by cases he; exact hrevision⟩
  | warned | left | returned => exact ⟨⟨rfl, rfl, Nat.le_refl _⟩, fun e he => by cases he⟩

theorem Performs.sameHand (hp : Performs s op s') (hs : Serves c posted s) : SameHand s.table s'.table := by
  cases hp with
  | @announced _ reason event s₁ ha =>
    obtain ⟨subscribers, he, _⟩ := broadcast_told (ha.serves hs).toBound reason event
    rw [he]
    exact ha.hand.1
  | refused | unchanged | bound | ticked | paced | subscribed | received | hungUp => exact ⟨rfl, rfl, Nat.le_refl _⟩

/-- What a request puts last into the channel of a session. -/
structure News (s s' : RuntimeState) (audience : ProjectionAudience) (update : SubscriptionUpdate) : Prop where
  number : update.streamSequence = s.streamSequence + 1
  last : s'.streamSequence = s.streamSequence + 1
  shown : Shown s'.table audience update.snapshot
  event : ∀ e, update.event = some e → e.revision = update.snapshot.revision ∧ s.table.revision < update.snapshot.revision

/-- What a request leaves of a session's subscription: nothing new, one update more, or
    nothing at all. -/
inductive Left (s s' : RuntimeState) (audience : ProjectionAudience) (session : GuestSessionId) : Prop
  | same : s'.subscribers.contains session = s.subscribers.contains session → s'.channel session = s.channel session →
      (s.subscribers.contains session = true → s'.streamSequence = s.streamSequence) → Left s s' audience session
  | more (update : SubscriptionUpdate) : s.subscribers.contains session = true → s'.subscribers.contains session = true →
      s'.channel session = s.channel session ++ [update] → News s s' audience update → Left s s' audience session
  | ended : s.subscribers.contains session = true → s'.subscribers.contains session = false → Left s s' audience session

theorem Performs.leaves (hp : Performs s op s') (hs : Serves c posted s) (hf : s.sessions.find? session = some binding)
    (hsubscribe : op ≠ .subscribe session) (hreceive : op ≠ .receive session) (hhang : op ≠ .hangUp session) :
    Left s s' binding.role.audience session := by
  have hcontains : ∀ k : RuntimeState, k.subscribers.contains session = (k.subscribers.find? session).isSome := fun _ => rfl
  obtain ⟨connected, hf'⟩ := hp.role hs hf
  have hsilent : s'.streamSequence = s.streamSequence → s'.subscribers.find? session = s.subscribers.find? session →
      Left s s' binding.role.audience session := by
    intro hsequence hsame
    exact .same (by rw [hcontains, hcontains, hsame]) (by rw [channel, channel, hsame]) fun _ => hsequence
  have hshows := hp.shows hs
  have hrelay := hp.relays hs
  have hhand : ∀ e, s'.acceptedEvents = s.acceptedEvents ++ [e] → e.revision = s'.table.revision := by
    intro e he
    cases hp with
    | @announced _ reason event s₁ ha =>
      obtain ⟨_, hevents, _⟩ := ha.before
      obtain ⟨subscribers, hb, _⟩ := broadcast_told (ha.serves hs).toBound reason event
      rw [hb] at he ⊢
      have hsome : event.toList = [e] := List.append_cancel_left (hevents.symm.trans he)
      cases event with
      | none => cases hsome
      | some found =>
        obtain rfl := List.singleton_inj.mp hsome
        exact ha.hand.2 found rfl
    | unchanged | bound | refused | ticked | paced | subscribed | received | hungUp =>
      have := congrArg List.length he
      simp [RuntimeOp.apply] at this
  cases hrelay with
  | silent hsequence _ _ _ hothers => exact hsilent hsequence (hothers session hsubscribe hreceive hhang)
  | broadcast reason event hsequence hevents hnone hdeliver =>
    cases hold : s.subscribers.find? session with
    | none =>
      have hgone := hnone session hold
      refine .same (by rw [hcontains, hcontains, hold, hgone]) (by rw [channel, channel, hold, hgone]) fun hin => ?_
      rw [hcontains, hold] at hin
      cases hin
    | some subscriber =>
      have hd := hdeliver session subscriber hold
      have hin : s.subscribers.contains session = true := by rw [hcontains, hold]; rfl
      generalize hleft : s'.subscribers.find? session = left at hd
      cases hd with
      | dropped _ => exact .ended hin (by rw [hcontains, hleft]; rfl)
      | sent found snapshot hfound _ _ _ hview =>
        have hrole : found.role = binding.role := by
          rw [hf'] at hfound
          rw [← Option.some.inj hfound]
        refine .more _ hin (by rw [hcontains, hleft]; rfl) (by rw [channel, channel, hold, hleft]; rfl)
          ⟨hsequence, hsequence, ?_, ?_⟩
        · rw [← hrole]
          exact view_shown hview
        · intro e he
          obtain rfl : event = some e := he
          have hrevision := view_revision hview
          refine ⟨(hhand e hevents).trans hrevision.symm, ?_⟩
          rw [hrevision]
          cases hshows with
          | same hquiet _ _ _ =>
            rw [hquiet] at hevents
            have := congrArg List.length hevents
            simp at this
          | accepted _ _ hnext _ => omega

/-! ## The ids of its answers -/

/-- Each command recorded is recorded under its own id. -/
def Keyed (s : RuntimeState) : Prop := ∀ entry ∈ s.table.recordedCommands, entry.2.outcome.commandId = some entry.1

theorem Performs.keyed (hp : Performs s op s') (hs : Serves c posted s) (hk : s.Keyed) : s'.Keyed := by
  have hgrown : ∀ (a : ProtocolAuthority) (id : String) (entry : RecordedCommand), entry.outcome.commandId = some id →
      a.recordedCommands = s.table.recordedCommands →
      ∀ e ∈ (a.record id entry).recordedCommands, e.2.outcome.commandId = some e.1 := by
    intro a id entry hid hsame e he
    rcases List.mem_append.mp he with he | he
    · exact hk e (hsame ▸ he)
    · rw [List.mem_singleton.mp he]
      exact hid
  cases hp with
  | @announced _ reason event s₁ ha =>
    obtain ⟨subscribers, he, _⟩ := broadcast_told (ha.serves hs).toBound reason event
    rw [he]
    show s₁.Keyed
    cases ha with
    | acted _ command _ _ _ _ | timedOut _ _ _ _ _ _ _ _ =>
      simp only [Keyed, rearmed_table, recording]
      exact hgrown _ _ _ rfl rfl
    | preferred _ command _ _ _ _ => exact hgrown _ _ _ rfl rfl
    | advanced now e table hadv =>
      simp only [Keyed, rearmed_table]
      obtain ⟨_, _, hrecorded, _, _⟩ := advanced_waits hs.stage hadv
      rw [hrecorded]
      exact hk
    | warned | left | returned => exact hk
  | refused _ command entry _ hentry => exact hgrown _ _ _ hentry rfl
  | unchanged | bound | ticked | paced | subscribed | received | hungUp => exact hk

/-- A submission with a valid id is answered under that id. -/
theorem Keyed.answers (hk : s.Keyed) {command : CommandEnvelope} (hvalid : validCommandId command.commandId = true)
    (server : Bool) :
    (s.table.submitFrom command server).1.acknowledgement.commandId = some command.commandId := by
  unfold ProtocolAuthority.submitFrom
  split
  · rename_i error hframe
    unfold ProtocolAuthority.framingRefusal at hframe
    rw [hvalid] at hframe
    simp only [if_true, Option.isNone_some, Bool.false_eq_true, if_false] at hframe
    split at hframe
    · cases hframe; rfl
    split at hframe
    · cases hframe; rfl
    split at hframe
    · cases hframe; rfl
    split at hframe
    · cases hframe; rfl
    · cases hframe
  · split
    · rename_i recorded hrecorded
      have hmem : (command.commandId, recorded) ∈ s.table.recordedCommands := by
        obtain ⟨l₁, l₂, he, _⟩ := List.lookup_eq_some_iff.mp hrecorded
        rw [he]
        exact List.mem_append_right _ List.mem_cons_self
      split
      · exact hk _ hmem
      · rfl
    · split
      · rfl
      · exact execute_commandId s.table command

end shown

end RuntimeState

/-! ## One connection -/

namespace ServerWireMessage

def update? : ServerWireMessage → Option SubscriptionUpdate
  | .update sent => some sent
  | _ => none

def response? : ServerWireMessage → Option AuthorizedTableResponse
  | .response sent => some sent
  | _ => none

end ServerWireMessage

/-- The updates a client has yet to get: those written, then those its loop can still read. -/
def incoming (replies : List ServerWireMessage) (box : List SubscriptionUpdate) : List SubscriptionUpdate :=
  replies.filterMap ServerWireMessage.update? ++ box

def responses (replies : List ServerWireMessage) : List AuthorizedTableResponse := replies.filterMap ServerWireMessage.response?

/-- A command a client of `audience` has sent and waits for. -/
structure Sent (audience : ProjectionAudience) (pending : PendingCommand) (command : CommandEnvelope) : Prop where
  id : command.commandId = pending.commandId
  valid : validCommandId command.commandId = true
  seat : audience = .player command.payload.seat

/-- What a client waits for: nothing, or the one command it has sent, or its response. -/
inductive Awaits (audience : ProjectionAudience) (client : ProjectionClient) :
    List CommandEnvelope → List AuthorizedTableResponse → Prop
  | nothing : Awaits audience client [] []
  | command (pending : PendingCommand) (command : CommandEnvelope) : client.pending = some pending →
      pending.expectedRevision ≤ client.snapshot.revision → Sent audience pending command → Awaits audience client [command] []
  | response (pending : PendingCommand) (response : AuthorizedTableResponse) : client.pending = some pending →
      pending.expectedRevision ≤ client.snapshot.revision → response.receipt.acknowledgement.commandId = some pending.commandId →
      Awaits audience client [] [response]

/-- What holds between a client, what is under way to it and the runtime. -/
structure Talks (runtime : RuntimeState) (audience : ProjectionAudience) (live : Bool) (app : NetworkApp)
    (requests : List CommandEnvelope) (replies : List ServerWireMessage) (box : List SubscriptionUpdate) : Prop where
  named : ∃ nonce, app.commandPrefix = "ui-" ++ hex32 nonce
  kinds : ∀ message ∈ replies, (∃ update, message = .update update) ∨ (∃ response, message = .response response) ∨
    ∃ error, message = .error error
  waits : Awaits audience app.client requests (responses replies)
  shown : Shown runtime.table audience app.client.snapshot
  updates : ∀ update ∈ incoming replies box, Shown runtime.table audience update.snapshot ∧
    ∀ e, update.event = some e → e.revision = update.snapshot.revision
  /-- Consecutive numbers, from one the client has not missed to the last broadcast. -/
  numbered : ∃ first ≤ app.client.lastStreamSequence + 1,
    (incoming replies box).map (·.streamSequence) = List.range' first (incoming replies box).length ∧
      first + (incoming replies box).length ≤ runtime.streamSequence + 1 ∧
      (live = true → first + (incoming replies box).length = runtime.streamSequence + 1)
  rising : (incoming replies box).Pairwise fun earlier later => later.event.isSome = true →
    earlier.snapshot.revision < later.snapshot.revision
  fresh : ∀ update ∈ incoming replies box, update.event.isSome = true → app.client.lastStreamSequence < update.streamSequence →
    app.client.snapshot.revision < update.snapshot.revision
  answers : ∀ response ∈ responses replies, Shown runtime.table audience response.snapshot ∧
    response.streamSequence ≤ runtime.streamSequence ∧
    ∀ update ∈ incoming replies box, update.event.isSome = true → response.streamSequence < update.streamSequence →
      response.snapshot.revision < update.snapshot.revision

section talks
variable {runtime runtime' : RuntimeState} {audience : ProjectionAudience} {live : Bool} {app : NetworkApp}
  {requests : List CommandEnvelope} {replies : List ServerWireMessage} {box : List SubscriptionUpdate}

/-- The runtime moves on and tells the session nothing. -/
theorem Talks.quiet (ht : Talks runtime audience live app requests replies box) (hsame : SameHand runtime.table runtime'.table)
    (hle : runtime.streamSequence ≤ runtime'.streamSequence) {live' : Bool}
    (hlive : live' = true → live = true ∧ runtime'.streamSequence = runtime.streamSequence) :
    Talks runtime' audience live' app requests replies box := by
  obtain ⟨first, hfirst, hnumbers, hbound, hlast⟩ := ht.numbered
  refine ⟨ht.named, ht.kinds, ht.waits, ht.shown.later hsame, ?_, ⟨first, hfirst, hnumbers, by omega, ?_⟩,
    ht.rising, ht.fresh, ?_⟩
  · intro update hu
    exact ⟨(ht.updates update hu).1.later hsame, (ht.updates update hu).2⟩
  · intro hon
    obtain ⟨hwas, hsequence⟩ := hlive hon
    rw [hsequence]
    exact hlast hwas
  · intro response hr
    obtain ⟨hshown, hsequence, hnewer⟩ := ht.answers response hr
    exact ⟨hshown.later hsame, Nat.le_trans hsequence hle, hnewer⟩

/-- The runtime moves on and puts one update more into the session's channel. -/
theorem Talks.told (ht : Talks runtime audience true app requests replies box) (hsame : SameHand runtime.table runtime'.table)
    {update : SubscriptionUpdate} (hnews : RuntimeState.News runtime runtime' audience update) :
    Talks runtime' audience true app requests replies (box ++ [update]) := by
  have hincoming : incoming replies (box ++ [update]) = incoming replies box ++ [update] := (List.append_assoc _ _ _).symm
  obtain ⟨first, hfirst, hnumbers, _, hlast⟩ := ht.numbered
  have hnext : first + (incoming replies box).length = update.streamSequence := (hlast rfl).trans hnews.number.symm
  have hsequence := hnews.last
  have hnumber := hnews.number
  refine ⟨ht.named, ht.kinds, ht.waits, ht.shown.later hsame, ?_, ⟨first, hfirst, ?_, ?_, fun _ => ?_⟩, ?_, ?_, ?_⟩
  all_goals rw [hincoming]
  · intro u hu
    rcases List.mem_append.mp hu with hu | hu
    · exact ⟨(ht.updates u hu).1.later hsame, (ht.updates u hu).2⟩
    · rw [List.mem_singleton.mp hu]
      exact ⟨hnews.shown, fun e he => (hnews.event e he).1⟩
  · rw [List.map_append, hnumbers, List.length_append, List.map_singleton, ← hnext, List.length_singleton, List.range'_1_concat]
  · rw [List.length_append, List.length_singleton]
    omega
  · rw [List.length_append, List.length_singleton]
    omega
  · refine List.pairwise_append.mpr ⟨ht.rising, List.pairwise_singleton _ _, ?_⟩
    intro u hu v hv
    rw [List.mem_singleton.mp hv]
    intro hsome
    obtain ⟨e, he⟩ := Option.isSome_iff_exists.mp hsome
    exact Nat.lt_of_le_of_lt (ht.updates u hu).1.revision (hnews.event e he).2
  · intro u hu hsome hnew
    rcases List.mem_append.mp hu with hu | hu
    · exact ht.fresh u hu hsome hnew
    · rw [List.mem_singleton.mp hu] at hsome ⊢
      obtain ⟨e, he⟩ := Option.isSome_iff_exists.mp hsome
      exact Nat.lt_of_le_of_lt ht.shown.revision (hnews.event e he).2
  · intro response hr
    obtain ⟨hshown, hle, hnewer⟩ := ht.answers response hr
    refine ⟨hshown.later hsame, by omega, ?_⟩
    intro u hu hsome hnew
    rcases List.mem_append.mp hu with hu | hu
    · exact hnewer u hu hsome hnew
    · rw [List.mem_singleton.mp hu] at hsome ⊢
      obtain ⟨e, he⟩ := Option.isSome_iff_exists.mp hsome
      exact Nat.lt_of_le_of_lt hshown.revision (hnews.event e he).2

/-- The loop writes the next update. -/
theorem Talks.forward {update : SubscriptionUpdate} (ht : Talks runtime audience live app requests replies (update :: box)) :
    Talks runtime audience live app requests (replies ++ [.update update]) box := by
  have hincoming : incoming (replies ++ [.update update]) box = incoming replies (update :: box) := by
    simp [incoming, ServerWireMessage.update?]
  have hresponses : responses (replies ++ [.update update]) = responses replies := by
    simp [responses, ServerWireMessage.response?]
  refine ⟨ht.named, ?_, hresponses ▸ ht.waits, ht.shown, hincoming ▸ ht.updates, hincoming ▸ ht.numbered, hincoming ▸ ht.rising,
    hincoming ▸ ht.fresh, by rw [hresponses, hincoming]; exact ht.answers⟩
  intro message hm
  rcases List.mem_append.mp hm with hm | hm
  · exact ht.kinds message hm
  · exact Or.inl ⟨update, List.mem_singleton.mp hm⟩

/-- The answer to the command is written: its response, or an error that names no command. -/
theorem Talks.respond {command : CommandEnvelope} {response : AuthorizedTableResponse}
    (ht : Talks runtime audience live app [command] replies box)
    (hid : response.receipt.acknowledgement.commandId = some command.commandId)
    (hshown : Shown runtime.table audience response.snapshot)
    (hsequence : response.streamSequence = runtime.streamSequence) :
    Talks runtime audience live app [] (replies ++ [.response response]) box := by
  have hincoming : incoming (replies ++ [.response response]) box = incoming replies box := by
    simp [incoming, ServerWireMessage.update?]
  have hresponses : responses (replies ++ [.response response]) = responses replies ++ [response] := by
    simp [responses, ServerWireMessage.response?]
  have hwaits := ht.waits
  obtain ⟨first, hfirst, hnumbers, hbound, hlast⟩ := ht.numbered
  generalize hnone : responses replies = before at hwaits
  cases hwaits with
  | command pending _ hpending hrevision hsent =>
    refine ⟨ht.named, ?_, ?_, ht.shown, hincoming ▸ ht.updates, hincoming ▸ ⟨first, hfirst, hnumbers, hbound, hlast⟩,
      hincoming ▸ ht.rising, hincoming ▸ ht.fresh, ?_⟩
    · intro message hm
      rcases List.mem_append.mp hm with hm | hm
      · exact ht.kinds message hm
      · exact Or.inr (Or.inl ⟨response, List.mem_singleton.mp hm⟩)
    · rw [hresponses, hnone]
      exact .response pending response hpending hrevision (hid.trans (congrArg some hsent.id))
    · rw [hresponses, hnone, hincoming]
      intro r hr
      rw [List.mem_singleton.mp hr]
      refine ⟨hshown, Nat.le_of_eq hsequence, ?_⟩
      intro update hu _ hnew
      have hmem : update.streamSequence ∈ List.range' first (incoming replies box).length := by
        rw [← hnumbers]
        exact List.mem_map_of_mem hu
      have hrange := List.mem_range'_1.mp hmem
      omega

theorem Talks.refuse {command : CommandEnvelope} (ht : Talks runtime audience live app [command] replies box)
    (error : PublicWireError) :
    Talks runtime audience live app [] (replies ++ [.error error]) box := by
  have hincoming : incoming (replies ++ [.error error]) box = incoming replies box := by
    simp [incoming, ServerWireMessage.update?]
  have hresponses : responses (replies ++ [.error error]) = responses replies := by
    simp [responses, ServerWireMessage.response?]
  have hwaits := ht.waits
  generalize hnone : responses replies = before at hwaits
  cases hwaits with
  | command pending _ _ _ _ =>
    refine ⟨ht.named, ?_, by rw [hresponses, hnone]; exact .nothing, ht.shown, hincoming ▸ ht.updates, hincoming ▸ ht.numbered,
      hincoming ▸ ht.rising, hincoming ▸ ht.fresh, by rw [hresponses, hincoming]; exact ht.answers⟩
    intro message hm
    rcases List.mem_append.mp hm with hm | hm
    · exact ht.kinds message hm
    · exact Or.inr (Or.inr ⟨error, List.mem_singleton.mp hm⟩)

/-! ## What a client sends -/

theorem hexDigit_byte {n : Nat} (h : n < 16) : idCharacter (hexDigit n) = true ∧ (hexDigit n).utf8Size = 1 := by
  have hall : ∀ k < 16, idCharacter (hexDigit k) = true ∧ (hexDigit k).utf8Size = 1 := by decide
  exact hall n h

theorem hex32_bytes (n : Nat) : (hex32 n).toList.all idCharacter = true ∧ (hex32 n).utf8ByteSize = 32 := by
  constructor
  · rw [hex32, String.toList_ofList, List.all_map, List.all_eq_true]
    intro i _
    exact (hexDigit_byte (Nat.mod_lt _ (by decide))).1
  · have hones : ((List.range 32).map fun i => hexDigit (n / 16 ^ (31 - i) % 16)).map Char.utf8Size =
        (List.range 32).map fun _ => 1 := by
      rw [List.map_map]
      refine List.map_congr_left fun i _ => ?_
      exact (hexDigit_byte (Nat.mod_lt _ (by decide))).2
    rw [hex32, Numerals.utf8ByteSize_ofList, hones]
    decide

/-- The ids that an app gives its commands are valid. -/
theorem commandId_valid (nonce n : Nat) {label : String} (hlabel : label.toList.all idCharacter = true)
    (hsize : label.utf8ByteSize ≤ 6) :
    validCommandId ("ui-" ++ hex32 nonce ++ label ++ toString (n % 2 ^ 64)) = true := by
  obtain ⟨hall, hbytes⟩ := hex32_bytes nonce
  refine numbered_valid ?_ ?_ (Nat.lt_trans (Nat.mod_lt _ (by decide)) (by decide))
  · rw [String.toList_append, String.toList_append, List.all_append, List.all_append, hall, hlabel]
    decide
  · have hui : "ui-".utf8ByteSize = 3 := by decide
    rw [String.utf8ByteSize_append, String.utf8ByteSize_append]
    omega

/-- What a client that prepares a command keeps and gains. -/
structure Prepares (client : ProjectionClient) (id : String) (command : CommandEnvelope)
    (prepared : ProjectionClient) : Prop where
  free : client.pending = none
  named : command.commandId = id
  seat : client.snapshot.snapshot.audience = .player command.payload.seat
  pending : ∃ action, prepared = { client with pending := some ⟨id, client.snapshot.revision, action⟩ }

theorem prepareAction_prepares {client prepared : ProjectionClient} {id : String} {action : Action} {command : CommandEnvelope}
    (h : client.prepareAction id action = (.ok command, prepared)) : Prepares client id command prepared := by
  unfold ProjectionClient.prepareAction at h
  split at h
  · cases h
  · cases h
  split at h
  · cases h
  rename_i hfree
  split at h
  · cases h
  rename_i seat haudience
  split at h
  · cases h
  split at h
  · cases h
  split at h
  · cases h
  · cases h
    exact ⟨by simpa using hfree, rfl, haudience, some action, rfl⟩

theorem prepareShowdownPreference_prepares {client prepared : ProjectionClient} {id : String} {alwaysShow : Bool}
    {command : CommandEnvelope} (h : client.prepareShowdownPreference id alwaysShow = (.ok command, prepared)) :
    Prepares client id command prepared := by
  unfold ProjectionClient.prepareShowdownPreference at h
  split at h
  · cases h
  rename_i hfree
  split at h
  · cases h
  rename_i seat haudience
  split at h
  · cases h
  · cases h
    refine ⟨?_, rfl, haudience, none, rfl⟩
    rw [Bool.or_eq_true, not_or] at hfree
    simpa using hfree.2

/-- A command prepared is sent. -/
theorem Talks.send {app' : NetworkApp} {id : String} {command : CommandEnvelope}
    (ht : Talks runtime audience live app requests replies box)
    (hprepares : Prepares app.client id command app'.client) (hsame : app'.commandPrefix = app.commandPrefix)
    (hvalid : validCommandId id = true) : Talks runtime audience live app' (requests ++ [command]) replies box := by
  obtain ⟨action, hclient⟩ := hprepares.pending
  have hsnapshot : app'.client.snapshot = app.client.snapshot := by rw [hclient]
  have hlast : app'.client.lastStreamSequence = app.client.lastStreamSequence := by rw [hclient]
  refine ⟨by rw [hsame]; exact ht.named, ht.kinds, ?_, by rw [hsnapshot]; exact ht.shown,
    ht.updates, by rw [hlast]; exact ht.numbered,
    ht.rising, by rw [hsnapshot, hlast]; exact ht.fresh, ht.answers⟩
  have hwaits := ht.waits
  have hfree := hprepares.free
  generalize responses replies = before at hwaits ⊢
  cases hwaits with
  | nothing =>
    refine .command ⟨id, app.client.snapshot.revision, action⟩ command (by rw [hclient])
      (by rw [hsnapshot]) ⟨hprepares.named, ?_, ?_⟩
    · rw [hprepares.named]
      exact hvalid
    · rw [← ht.shown.audience]
      exact hprepares.seat
  | command pending _ hpending _ _ => rw [hfree] at hpending; cases hpending
  | response pending _ hpending _ _ => rw [hfree] at hpending; cases hpending

/-- An app whose client is as it was. -/
theorem Talks.unchanged {app' : NetworkApp} (ht : Talks runtime audience live app requests replies box)
    (hclient : app'.client = app.client) (hsame : app'.commandPrefix = app.commandPrefix) :
    Talks runtime audience live app' requests replies box :=
  ⟨by rw [hsame]; exact ht.named, ht.kinds, by rw [hclient]; exact ht.waits, by rw [hclient]; exact ht.shown, ht.updates,
    by rw [hclient]; exact ht.numbered, ht.rising, by rw [hclient]; exact ht.fresh, ht.answers⟩

/-! ## What a client gets -/

/-- The next message is a broadcast that makes the client forget a command that has not
    been answered yet. -/
def overtaking (client : ProjectionClient) (requests : List CommandEnvelope) : List ServerWireMessage → Bool
  | .update update :: rest =>
    client.pending.any fun pending => (!requests.isEmpty || !(responses rest).isEmpty) &&
      (client.lastStreamSequence < update.streamSequence && pending.expectedRevision < update.snapshot.revision)
  | _ => false

/-- The client gets an update: an old one, the next one, or the next one of an older revision. -/
inductive Updated (client : ProjectionClient) (update : SubscriptionUpdate) : ProjectionClient → Prop
  | stale : update.streamSequence ≤ client.lastStreamSequence → Updated client update client
  | older : client.lastStreamSequence < update.streamSequence → update.snapshot.revision < client.snapshot.revision →
      Updated client update { client with lastStreamSequence := update.streamSequence, receivedBroadcast := true }
  | applied : client.lastStreamSequence < update.streamSequence → client.snapshot.revision ≤ update.snapshot.revision →
      Updated client update
        { snapshot := update.snapshot
          connection := .connected
          pending := if client.settles update then none else client.pending
          deadline := update.deadline
          lastStreamSequence := update.streamSequence
          receivedBroadcast := update.reason ≠ .initial }

theorem applyUpdate_updated {client : ProjectionClient} {update : SubscriptionUpdate}
    (hvalid : client.validateIdentityAndAudience update.snapshot = .ok ())
    (hnext : update.streamSequence ≤ client.lastStreamSequence + 1) :
    ∃ disposition client', client.applyUpdate update = (.ok disposition, client') ∧ Updated client update client' := by
  unfold ProjectionClient.applyUpdate
  rw [hvalid]
  dsimp only
  split
  · exact ⟨_, _, rfl, .stale ‹_›⟩
  rename_i hnew
  have hlt := Nat.not_le.mp hnew
  rw [if_neg (by
    rw [Bool.and_eq_true, not_and]
    intro _
    simp only [decide_eq_true_eq]
    omega)]
  split
  · exact ⟨_, _, rfl, .older hlt ‹_›⟩
  · exact ⟨_, _, rfl, .applied hlt (Nat.not_lt.mp ‹_›)⟩

theorem Updated.newer {client client' : ProjectionClient} {update : SubscriptionUpdate} (hu : Updated client update client') :
    client.lastStreamSequence ≤ client'.lastStreamSequence ∧ update.streamSequence ≤ client'.lastStreamSequence ∧
      client.snapshot.revision ≤ client'.snapshot.revision := by
  cases hu with
  | stale hle => exact ⟨Nat.le_refl _, hle, Nat.le_refl _⟩
  | older hlt _ => exact ⟨Nat.le_of_lt hlt, Nat.le_refl _, Nat.le_refl _⟩
  | applied hlt hle => exact ⟨Nat.le_of_lt hlt, Nat.le_refl _, hle⟩

theorem Updated.snapshot {client client' : ProjectionClient} {update : SubscriptionUpdate} (hu : Updated client update client') :
    client'.snapshot = client.snapshot ∨
      client'.snapshot = update.snapshot ∧ client'.lastStreamSequence = update.streamSequence := by
  cases hu with
  | stale => exact Or.inl rfl
  | older => exact Or.inl rfl
  | applied => exact Or.inr ⟨rfl, rfl⟩

/-- An update that does not overtake the command leaves it pending. -/
theorem Updated.pending {client client' : ProjectionClient} {update : SubscriptionUpdate} {pending : PendingCommand}
    (hu : Updated client update client') (hp : client.pending = some pending)
    (hle : client.lastStreamSequence < update.streamSequence → update.snapshot.revision ≤ pending.expectedRevision)
    (hrevision : pending.expectedRevision ≤ client.snapshot.revision)
    (hfresh : update.event.isSome = true → client.lastStreamSequence < update.streamSequence →
      client.snapshot.revision < update.snapshot.revision) : client'.pending = some pending := by
  cases hu with
  | stale | older => exact hp
  | applied hlt _ =>
    dsimp only
    have hbound := hle hlt
    rw [if_neg, hp]
    unfold ProjectionClient.settles
    cases hevent : update.event with
    | some event =>
      have := hfresh (by rw [hevent]; rfl) hlt
      omega
    | none =>
      simp only [decide_eq_true_eq]
      omega

theorem Talks.gotUpdate {update : SubscriptionUpdate} {client : ProjectionClient}
    (ht : Talks runtime audience live app requests (.update update :: replies) box)
    (hfree : overtaking app.client requests (.update update :: replies) = false) (hu : Updated app.client update client) :
    Talks runtime audience live { app with client := client } requests replies box := by
  have hincoming : incoming (.update update :: replies) box = update :: incoming replies box := rfl
  have hresponses : responses (.update update :: replies) = responses replies := rfl
  obtain ⟨hlast, hgot, hrevision⟩ := hu.newer
  have hmem : update ∈ incoming (.update update :: replies) box := by rw [hincoming]; exact List.mem_cons_self
  have hrest : ∀ u ∈ incoming replies box, u ∈ incoming (.update update :: replies) box := by
    intro u hu
    rw [hincoming]
    exact List.mem_cons_of_mem _ hu
  refine ⟨ht.named, fun message hm => ht.kinds message (List.mem_cons_of_mem _ hm), ?_, ?_,
    fun u hu => ht.updates u (hrest u hu), ?_,
    ?_, ?_, ?_⟩
  · -- What is pending stays pending: the update does not overtake the command.
    have hkept : ∀ pending, app.client.pending = some pending → (requests ≠ [] ∨ responses replies ≠ []) →
        pending.expectedRevision ≤ app.client.snapshot.revision → client.pending = some pending := by
      intro pending hp hopen hle
      refine hu.pending hp (fun hlt => ?_) hle fun hsome => ht.fresh update hmem hsome
      refine Nat.not_lt.mp fun hover => Bool.eq_false_iff.mp hfree ?_
      have hunanswered : (!requests.isEmpty || !(responses replies).isEmpty) = true := by simpa using hopen
      simp [overtaking, hp, hunanswered, hlt, hover]
    have hwaits := ht.waits
    rw [hresponses] at hwaits
    generalize responses replies = before at hkept hwaits ⊢
    cases hwaits with
    | nothing => exact .nothing
    | command pending command hp hle hsent =>
      exact .command pending command (hkept pending hp (Or.inl (List.cons_ne_nil _ _)) hle) (Nat.le_trans hle hrevision) hsent
    | response pending response hp hle hid =>
      exact .response pending response (hkept pending hp (Or.inr (List.cons_ne_nil _ _)) hle) (Nat.le_trans hle hrevision) hid
  · rcases hu.snapshot with he | ⟨he, _⟩
    · rw [show ({ app with client := client } : NetworkApp).client.snapshot = _ from he]
      exact ht.shown
    · rw [show ({ app with client := client } : NetworkApp).client.snapshot = _ from he]
      exact (ht.updates update hmem).1
  · obtain ⟨first, _, hnumbers, hbound, hlive⟩ := ht.numbered
    rw [hincoming, List.map_cons, List.length_cons, List.range'_succ] at hnumbers
    obtain ⟨hfirst, hnumbers⟩ := List.cons.inj hnumbers
    rw [hincoming, List.length_cons] at hbound hlive
    refine ⟨first + 1, ?_, hnumbers, by omega, fun hon => by have := hlive hon; omega⟩
    show first + 1 ≤ client.lastStreamSequence + 1
    omega
  · have := ht.rising
    rw [hincoming] at this
    exact (List.pairwise_cons.mp this).2
  · intro u hmore hsome hnew
    have hnew : client.lastStreamSequence < u.streamSequence := hnew
    show client.snapshot.revision < u.snapshot.revision
    rcases hu.snapshot with he | ⟨he, _⟩
    · rw [he]
      exact ht.fresh u (hrest u hmore) hsome (Nat.lt_of_le_of_lt hlast hnew)
    · rw [he]
      have hrising := ht.rising
      rw [hincoming] at hrising
      exact (List.pairwise_cons.mp hrising).1 u hmore hsome
  · intro response hr
    obtain ⟨hshown, hsequence, hnewer⟩ := ht.answers response hr
    exact ⟨hshown, hsequence, fun u hmore => hnewer u (hrest u hmore)⟩

theorem Talks.gotResponse {response : AuthorizedTableResponse}
    (ht : Talks runtime audience live app requests (.response response :: replies) box) :
    ∃ client, app.client.applyResponse response = (.ok (), client) ∧
      Talks runtime audience live { app with client := client } requests replies box := by
  have hincoming : incoming (.response response :: replies) box = incoming replies box := rfl
  have hresponses : responses (.response response :: replies) = response :: responses replies := rfl
  obtain ⟨hshown, _, hnewer⟩ := ht.answers response (by rw [hresponses]; exact List.mem_cons_self)
  rw [hincoming] at hnewer
  have hwaits := ht.waits
  rw [hresponses] at hwaits
  generalize hnone : responses replies = before at hwaits
  cases hwaits with
  | response pending _ hp hle hid =>
    have hvalid := ht.shown.validates hshown
    refine ⟨_, by
        rw [ProjectionClient.applyResponse, hvalid]
        dsimp only
        rw [hp]
        dsimp only
        rw [if_neg (not_not_intro hid)],
      ?_⟩
    refine ⟨ht.named, fun message hm => ht.kinds message (List.mem_cons_of_mem _ hm), by rw [hnone]; exact .nothing, ?_, ?_,
      ?_, ?_, ?_, ?_⟩
    · dsimp only
      split
      · exact hshown
      · exact ht.shown
    · exact fun u hu => ht.updates u hu
    · obtain ⟨first, hfirst, hnumbers, hbound, hlive⟩ := ht.numbered
      exact ⟨first, by dsimp only; omega, hnumbers, hbound, hlive⟩
    · exact ht.rising
    · intro u hu hsome hnew
      dsimp only at hnew ⊢
      have hfresh := ht.fresh u hu hsome (by omega)
      have hafter := hnewer u hu hsome (by omega)
      split
      · exact hafter
      · exact hfresh
    · rw [hnone]
      exact fun _ h => absurd h List.not_mem_nil

/-- The next message is accepted, unless it overtakes the command. -/
theorem Talks.deliver {message : ServerWireMessage} (ht : Talks runtime audience live app requests (message :: replies) box)
    (hfree : overtaking app.client requests (message :: replies) = false) : (app.applyMessage message).1 = .ok () ∧
      Talks runtime audience live (app.applyMessage message).2 requests replies box := by
  rcases ht.kinds message List.mem_cons_self with ⟨update, rfl⟩ | ⟨response, rfl⟩ | ⟨error, rfl⟩
  · have hmem : update ∈ incoming (.update update :: replies) box := List.mem_cons_self
    have hvalid := ht.shown.validates (ht.updates update hmem).1
    have hnext : update.streamSequence ≤ app.client.lastStreamSequence + 1 := by
      obtain ⟨first, hfirst, hnumbers, _⟩ := ht.numbered
      have hhead : update.streamSequence = first := (List.cons.inj (hnumbers.trans List.range'_succ)).1
      omega
    obtain ⟨disposition, client, he, hu⟩ := applyUpdate_updated hvalid hnext
    rw [NetworkApp.applyMessage, he]
    exact ⟨rfl, ht.gotUpdate hfree hu⟩
  · obtain ⟨client, he, ht'⟩ := ht.gotResponse
    rw [NetworkApp.applyMessage, he]
    exact ⟨rfl, ht'⟩
  · refine ⟨rfl, ⟨ht.named, fun message hm => ht.kinds message (List.mem_cons_of_mem _ hm), ht.waits, ht.shown,
      ht.updates, ht.numbered,
      ht.rising, ht.fresh, ht.answers⟩⟩

end talks

end OpenFelt
