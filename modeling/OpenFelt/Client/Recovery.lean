/-
  OpenFelt.Client.Recovery — a client that missed a broadcast.

  The bound connection answers a `SnapshotRequest` with an `Update` for the reason
  `Initial`. The app gives it to `apply_update`, which checks its number as it does a
  broadcast's, and not to `resynchronize_from_update`, as it does a `Welcome`. Proved, of
  every client that awaits resynchronization after any messages (`recovers_iff`): the
  answer brings it back exactly when its number is the one the client is waiting for,
  and after a gap the server is past that number (`gap_never_recovers`).
-/

import OpenFelt.Client.ProjectionClient
import OpenFelt.Protocol.Streams

namespace OpenFelt

open MultiwayHand (HandStarts)

/-- The answer to a `SnapshotRequest`. -/
def snapshotAnswer (snapshot : SnapshotEnvelope) (streamSequence : Nat) : SubscriptionUpdate :=
  ⟨streamSequence, .initial, none, snapshot, none⟩

/-- What happens to an app. -/
inductive AppStep where
  | receive (message : ServerWireMessage)
  | act (action : Action)
  | prefer (alwaysShow : Bool)
  | loseConnection
  deriving DecidableEq, Repr

namespace NetworkApp

def step (app : NetworkApp) : AppStep → NetworkApp
  | .receive message => (app.applyMessage message).2
  | .act action => (app.prepareAction action).2
  | .prefer alwaysShow => (app.prepareShowdownPreference alwaysShow).2
  | .loseConnection => app.markDisconnected

def run (app : NetworkApp) (history : List AppStep) : NetworkApp := history.foldl step app

/-- The answer to a `SnapshotRequest` puts the client back in step with its table. -/
def Recovers (app : NetworkApp) (snapshot : SnapshotEnvelope) (streamSequence : Nat) : Prop :=
  (app.applyMessage (.update (snapshotAnswer snapshot streamSequence))).1 = .ok () ∧
    (app.applyMessage (.update (snapshotAnswer snapshot streamSequence))).2.client.connection = .connected ∧
    (app.applyMessage (.update (snapshotAnswer snapshot streamSequence))).2.client.snapshot = snapshot ∧
    (app.applyMessage (.update (snapshotAnswer snapshot streamSequence))).2.client.lastStreamSequence = streamSequence

instance (app : NetworkApp) (snapshot : SnapshotEnvelope) (streamSequence : Nat) :
    Decidable (app.Recovers snapshot streamSequence) :=
  inferInstanceAs (Decidable (_ ∧ _ ∧ _ ∧ _))

end NetworkApp

namespace ProjectionClient

/-- A client that awaits resynchronization has no command pending and minds the gaps. -/
def Waits (client : ProjectionClient) : Prop :=
  client.connection = .awaitingResynchronization → client.receivedBroadcast = true ∧ client.pending = none

section client
variable {client : ProjectionClient} {snapshot : SnapshotEnvelope} {update : SubscriptionUpdate}

theorem bootstrapFromUpdate_waits (h : bootstrapFromUpdate update = .ok client) : client.Waits := by
  unfold bootstrapFromUpdate bootstrap at h
  split at h
  · cases h
  · rename_i fresh hfresh
    split at hfresh
    · cases hfresh
    · cases hfresh
      cases h
      intro hawaits
      cases hawaits

theorem Waits.applyUpdate (hw : client.Waits) (update : SubscriptionUpdate) : (client.applyUpdate update).2.Waits := by
  unfold ProjectionClient.applyUpdate
  split
  · exact hw
  split
  · exact hw
  split
  · rename_i hgap
    intro _
    exact ⟨((Bool.and_eq_true _ _).mp hgap).1, rfl⟩
  split
  · intro hawaits
    exact ⟨rfl, (hw hawaits).2⟩
  · intro hawaits
    cases hawaits

theorem Waits.applyResponse (hw : client.Waits) (response : AuthorizedTableResponse) :
    (client.applyResponse response).2.Waits := by
  unfold ProjectionClient.applyResponse
  split
  · exact hw
  split
  · exact hw
  split
  · exact hw
  · intro hawaits
    exact ⟨(hw hawaits).1, rfl⟩

theorem Waits.resynchronizeFromUpdate (hw : client.Waits) (update : SubscriptionUpdate) :
    (client.resynchronizeFromUpdate update).2.Waits := by
  unfold ProjectionClient.resynchronizeFromUpdate ProjectionClient.resynchronize
  cases client.validateIdentityAndAudience update.snapshot with
  | error error => exact hw
  | ok _ =>
    dsimp only
    by_cases hregress : update.snapshot.revision < client.snapshot.revision
    · rw [if_pos hregress]
      exact hw
    · rw [if_neg hregress]
      intro hawaits
      cases hawaits

/-- What an update of the client's own table and audience does. -/
theorem applyUpdate_same (hsame : client.validateIdentityAndAudience update.snapshot = .ok ()) : client.applyUpdate update =
    if update.streamSequence ≤ client.lastStreamSequence then (.ok .duplicateOrStale, client)
    else if client.receivedBroadcast && update.streamSequence ≠ client.lastStreamSequence + 1 then
      (.ok (.resynchronizationRequired (client.lastStreamSequence + 1) update.streamSequence),
        { client with connection := .awaitingResynchronization, pending := none })
    else if update.snapshot.revision < client.snapshot.revision then
      (.ok .duplicateOrStale, { client with lastStreamSequence := update.streamSequence, receivedBroadcast := true })
    else
      (.ok .applied,
        { snapshot := update.snapshot
          connection := .connected
          pending := if client.settles update then none else client.pending
          deadline := update.deadline
          lastStreamSequence := update.streamSequence
          receivedBroadcast := update.reason ≠ .initial }) := by
  unfold applyUpdate
  rw [hsame]

theorem applyUpdate_other {error : ProjectionClientError}
    (h : client.validateIdentityAndAudience update.snapshot = .error error) :
    client.applyUpdate update = (.error error, client) := by
  unfold applyUpdate
  rw [h]

/-- Only a connected client prepares a command. -/
theorem Waits.pend (hw : client.Waits) {prepared : ProjectionClient}
    (h : prepared = client ∨ client.connection = .connected ∧ prepared.connection = client.connection) : prepared.Waits := by
  rcases h with rfl | ⟨hconnected, hsame⟩
  · exact hw
  · intro hawaits
    rw [hsame, hconnected] at hawaits
    cases hawaits

theorem prepareAction_left (client : ProjectionClient) (commandId : String) (action : Action) :
    (client.prepareAction commandId action).2 = client ∨
      client.connection = .connected ∧ (client.prepareAction commandId action).2.connection = client.connection := by
  unfold prepareAction
  cases hc : client.connection with
  | awaitingResynchronization => exact Or.inl rfl
  | disconnected => exact Or.inl rfl
  | connected =>
    dsimp only
    split
    · exact Or.inl rfl
    split
    · exact Or.inl rfl
    split
    · exact Or.inl rfl
    split
    · exact Or.inl rfl
    split
    · exact Or.inl rfl
    · exact Or.inr ⟨rfl, rfl⟩

theorem prepareShowdownPreference_left (client : ProjectionClient) (commandId : String) (alwaysShow : Bool) :
    (client.prepareShowdownPreference commandId alwaysShow).2 = client ∨
      client.connection = .connected ∧
        (client.prepareShowdownPreference commandId alwaysShow).2.connection = client.connection := by
  unfold prepareShowdownPreference
  split
  · exact Or.inl rfl
  rename_i hfree
  split
  · exact Or.inl rfl
  split
  · exact Or.inl rfl
  · refine Or.inr ⟨?_, rfl⟩
    by_contra hc
    exact hfree (by simp [hc])

end client

end ProjectionClient

namespace NetworkApp

section app
variable {app : NetworkApp} {client : ProjectionClient} {initial : SubscriptionUpdate}

theorem step_waits (hw : app.client.Waits) (step : AppStep) : (app.step step).client.Waits := by
  cases step with
  | receive message =>
    cases message with
    | lobbyWelcome | lobby | lobbyError | error => exact hw
    | welcome update => exact hw.resynchronizeFromUpdate update
    | response response => exact hw.applyResponse response
    | update update => exact hw.applyUpdate update
    | goodbye =>
      intro hawaits
      cases hawaits
  | act action => exact hw.pend (app.client.prepareAction_left _ action)
  | prefer alwaysShow => exact hw.pend (app.client.prepareShowdownPreference_left _ alwaysShow)
  | loseConnection =>
    intro hawaits
    cases hawaits

theorem run_waits (hw : app.client.Waits) (history : List AppStep) : (app.run history).client.Waits := by
  induction history generalizing app with
  | nil => exact hw
  | cons step history ih => exact ih (step_waits hw step)

/-- A client that awaits resynchronization takes an answer of its own table and audience
    exactly when the answer's number is the next one. -/
theorem Waits.recovers_when (hw : app.client.Waits) (hawaits : app.client.connection = .awaitingResynchronization)
    {snapshot : SnapshotEnvelope} (hsame : app.client.validateIdentityAndAudience snapshot = .ok ()) (streamSequence : Nat) :
    app.Recovers snapshot streamSequence ↔
      streamSequence = app.client.lastStreamSequence + 1 ∧ app.client.snapshot.revision ≤ snapshot.revision := by
  obtain ⟨hbroadcast, _⟩ := hw hawaits
  obtain ⟨answer, hanswer⟩ : ∃ answer, answer = snapshotAnswer snapshot streamSequence := ⟨_, rfl⟩
  obtain ⟨rfl, rfl⟩ : answer.snapshot = snapshot ∧ answer.streamSequence = streamSequence := by rw [hanswer]; exact ⟨rfl, rfl⟩
  have hstuck : ∀ left : ProjectionClient, left.connection = .awaitingResynchronization →
      (app.client.applyUpdate answer).2 = left → ¬ app.Recovers answer.snapshot answer.streamSequence := by
    rintro left hleft he ⟨_, hconnected, _, _⟩
    rw [← hanswer] at hconnected
    have : left.connection = .connected := he ▸ hconnected
    rw [hleft] at this
    cases this
  have happly := ProjectionClient.applyUpdate_same hsame
  by_cases hold : answer.streamSequence ≤ app.client.lastStreamSequence
  · rw [if_pos hold] at happly
    refine ⟨fun h => absurd h (hstuck _ hawaits (by rw [happly])), fun ⟨hnext, _⟩ => ?_⟩
    omega
  rw [if_neg hold] at happly
  by_cases hgap : answer.streamSequence = app.client.lastStreamSequence + 1
  swap
  · rw [if_pos (by simp [hbroadcast, hgap])] at happly
    exact ⟨fun h => absurd h (hstuck _ rfl (by rw [happly])), fun ⟨hnext, _⟩ => absurd hnext hgap⟩
  rw [if_neg (by simp [hgap])] at happly
  by_cases hregress : answer.snapshot.revision < app.client.snapshot.revision
  · rw [if_pos hregress] at happly
    have hleft := congrArg Prod.snd happly
    refine ⟨fun h => absurd h (hstuck _ ?_ hleft), fun ⟨_, hle⟩ => ?_⟩
    · exact hawaits
    · omega
  · rw [if_neg hregress] at happly
    refine ⟨fun _ => ⟨hgap, Nat.not_lt.mp hregress⟩, fun _ => ?_⟩
    rw [Recovers, ← hanswer]
    simp only [applyMessage, happly]
    exact ⟨rfl, trivial, trivial, trivial⟩

/-- Whatever a client has been through, if it awaits resynchronization the answer to its
    `SnapshotRequest` brings it back exactly when it carries the number after the last
    that the client has seen. -/
theorem recovers_iff (hboot : ProjectionClient.bootstrapFromUpdate initial = .ok client) (nonce : Nat) (history : List AppStep)
    (hawaits : ((new client nonce).run history).client.connection = .awaitingResynchronization) (snapshot : SnapshotEnvelope)
    (hsame : ((new client nonce).run history).client.validateIdentityAndAudience snapshot = .ok ()) (streamSequence : Nat) :
    ((new client nonce).run history).Recovers snapshot streamSequence ↔
      streamSequence = ((new client nonce).run history).client.lastStreamSequence + 1 ∧
        ((new client nonce).run history).client.snapshot.revision ≤ snapshot.revision :=
  Waits.recovers_when (run_waits (ProjectionClient.bootstrapFromUpdate_waits hboot) history) hawaits hsame streamSequence

/-- After a gap nothing but the missed broadcast itself moves the client: later broadcasts
    leave it as it is, and no answer numbered past the gap brings it back. -/
theorem gap_never_recovers (hawaits : app.client.connection = .awaitingResynchronization)
    (hbroadcast : app.client.receivedBroadcast = true)
    (hpending : app.client.pending = none) (updates : List SubscriptionUpdate)
    (hmissed : ∀ update ∈ updates, update.streamSequence ≠ app.client.lastStreamSequence + 1) {snapshot : SnapshotEnvelope}
    {streamSequence : Nat} (hpast : app.client.lastStreamSequence + 1 < streamSequence) :
    app.run (updates.map fun update => .receive (.update update)) = app ∧ ¬ app.Recovers snapshot streamSequence := by
  constructor
  · induction updates with
    | nil => rfl
    | cons update updates ih =>
      obtain ⟨hhead, hrest⟩ := List.forall_mem_cons.mp hmissed
      have hstill : app.step (.receive (.update update)) = app := by
        obtain ⟨⟨snapshot, connection, pending, deadline, last, broadcast⟩, _, _⟩ := app
        obtain rfl : connection = .awaitingResynchronization := hawaits
        obtain rfl : broadcast = true := hbroadcast
        obtain rfl : pending = none := hpending
        simp only [step, applyMessage, ProjectionClient.applyUpdate]
        split
        · rfl
        split
        · rfl
        · rw [if_pos (by simpa using hhead)]
      show (app.step (.receive (.update update))).run _ = app
      rw [hstill]
      exact ih hrest
  · intro hrecovers
    cases hsame : app.client.validateIdentityAndAudience snapshot with
    | error error =>
      have hfails := hrecovers.1
      simp only [applyMessage, @ProjectionClient.applyUpdate_other _ (snapshotAnswer snapshot streamSequence) _ hsame] at hfails
      cases hfails
    | ok _ =>
      have hw : app.client.Waits := fun _ => ⟨hbroadcast, hpending⟩
      have := ((Waits.recovers_when hw hawaits hsame streamSequence).mp hrecovers).1
      omega

end app

/-- Three broadcasts to the client of seat 2. -/
def threeBroadcasts : List RuntimeOp :=
  [.bind ⟨"guest"⟩ ⟨1⟩ ⟨1⟩ (.player 2), .bind ⟨"watcher"⟩ ⟨1⟩ ⟨1⟩ .spectator, .subscribe ⟨"guest"⟩, .receive ⟨"guest"⟩,
    .disconnect ⟨"watcher"⟩, .reconnect ⟨"watcher"⟩, .disconnect ⟨"watcher"⟩,
    .receive ⟨"guest"⟩, .receive ⟨"guest"⟩, .receive ⟨"guest"⟩]

/-- The initial update of that client, the first and the third broadcast, and what the runtime
    then answers to a `SnapshotRequest`. -/
def missingSecond (h : MultiwayHand) : Option (SubscriptionUpdate × List AppStep × SnapshotEnvelope × Nat) :=
  let start := RuntimeState.spawn (.new ⟨1⟩ ⟨1⟩ h)
  let runtime := start.run threeBroadcasts
  match start.received ⟨"guest"⟩ threeBroadcasts, runtime.snapshot ⟨"guest"⟩ with
  | [initial, first, _, third], .ok snapshot =>
    some (initial, [.receive (.update first), .receive (.update third)], snapshot, runtime.streamSequence)
  | _, _ => none

theorem missingSecond_awaits : ∃ h, HandStarts threeHanded h ∧ ∃ initial client history snapshot n,
    missingSecond h = some (initial, history, snapshot, n) ∧ ProjectionClient.bootstrapFromUpdate initial = .ok client ∧
      ((new client 0).run history).client.connection = .awaitingResynchronization ∧
      ((new client 0).run history).client.validateIdentityAndAudience snapshot = .ok () ∧
      ((new client 0).run history).client.lastStreamSequence = 1 ∧ n = 3 := by
  have hrun : (threeHanded.build.toOption.map fun h =>
      (missingSecond { h with pacedShowdown := false }).bind fun (initial, history, snapshot, n) =>
        (ProjectionClient.bootstrapFromUpdate initial).toOption.map fun client =>
          let app := (new client 0).run history
          (app.client.connection, (app.client.validateIdentityAndAudience snapshot).toOption, app.client.lastStreamSequence, n)) =
      some (some (.awaitingResynchronization, some (), 1, 3)) := by
    decide +kernel
  cases h : threeHanded.build with
  | error e => rw [h] at hrun; cases hrun
  | ok start =>
    rw [h] at hrun
    obtain ⟨⟨initial, history, snapshot, n⟩, hmissing, hclient⟩ := Option.bind_eq_some_iff.mp (Option.some.inj hrun)
    obtain ⟨client, hboot, hstate⟩ := Option.map_eq_some_iff.mp hclient
    obtain ⟨hawaits, hrest⟩ := Prod.mk.inj hstate
    obtain ⟨hsame, hrest⟩ := Prod.mk.inj hrest
    obtain ⟨hlast, hn⟩ := Prod.mk.inj hrest
    refine ⟨{ start with pacedShowdown := false }, ⟨⟨.refl _, rfl⟩, start, false, h, rfl⟩, initial, client, history, snapshot, n,
      hmissing, ?_, hawaits, ?_, hlast, hn⟩
    · cases hb : ProjectionClient.bootstrapFromUpdate initial with
      | error e => rw [hb] at hboot; cases hboot
      | ok found => rw [hb] at hboot; rw [Option.some.inj hboot]
    · cases hv : ((new client 0).run history).client.validateIdentityAndAudience snapshot with
      | error e => rw [hv] at hsame; cases hsame
      | ok _ => rfl

theorem recovers_iff_three : ∃ initial client history snapshot, ProjectionClient.bootstrapFromUpdate initial = .ok client ∧
    ((new client 0).run history).client.connection = .awaitingResynchronization ∧
      (((new client 0).run history).Recovers snapshot 2 ↔
        2 = ((new client 0).run history).client.lastStreamSequence + 1 ∧
          ((new client 0).run history).client.snapshot.revision ≤ snapshot.revision) := by
  obtain ⟨_, _, initial, client, history, snapshot, _, _, hboot, hawaits, hsame, _⟩ := missingSecond_awaits
  exact ⟨initial, client, history, snapshot, hboot, hawaits, recovers_iff hboot 0 history hawaits snapshot hsame 2⟩

/-- One missed broadcast, and the answer to its `SnapshotRequest` leaves a client waiting. -/
theorem missed_broadcast_stuck : ∃ h, HandStarts threeHanded h ∧ ∃ initial client history snapshot n,
    missingSecond h = some (initial, history, snapshot, n) ∧ ProjectionClient.bootstrapFromUpdate initial = .ok client ∧
      ((new client 0).run history).client.connection = .awaitingResynchronization ∧
      ((new client 0).run history).client.validateIdentityAndAudience snapshot = .ok () ∧
      ¬ ((new client 0).run history).Recovers snapshot n := by
  obtain ⟨h, hstarts, initial, client, history, snapshot, n, hmissing, hboot, hawaits, hsame, hlast, hn⟩ := missingSecond_awaits
  refine ⟨h, hstarts, initial, client, history, snapshot, n, hmissing, hboot, hawaits, hsame, ?_⟩
  have hw := @run_waits (new client 0) (ProjectionClient.bootstrapFromUpdate_waits hboot) history
  obtain ⟨hbroadcast, hpending⟩ := hw hawaits
  exact (gap_never_recovers hawaits hbroadcast hpending [] (fun _ h => absurd h List.not_mem_nil)
    (by rw [hlast, hn]; decide)).2

end NetworkApp

end OpenFelt
