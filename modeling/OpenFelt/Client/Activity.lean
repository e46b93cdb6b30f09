/-
  OpenFelt.Client.Activity — every call on a client, with its activity log
  (`src/network_client.rs`, `ProjectionClient`).

  `LoggedClient` is the client with the lines it keeps for the screen. Proved, of any
  calls in any order with any envelopes (`calls_keep_order`): the client stays with its
  table, hand and audience and never goes back a revision; an old update changes the log
  only; after a gap nothing beyond the next update is adopted and the controls stay shut
  until that update or a resynchronization comes; no command is prepared while one is
  pending; and a call that fails leaves everything as it was.
-/

import OpenFelt.Client.Interleaved

namespace OpenFelt

def reasonLabel : SubscriptionReason → String
  | .initial => "initial"
  | .actionAccepted => "action accepted"
  | .deadlineWarning _ _ => "deadline warning"
  | .timeoutAction _ _ => "timeout action"
  | .connectionStateChanged _ _ => "connection changed"

/-- `{:?}` of an action. -/
def debugAction : Action → String
  | .fold => "Fold"
  | .check => "Check"
  | .call amount => "Call(" ++ toString amount ++ ")"
  | .bet amount => "Bet(" ++ toString amount ++ ")"
  | .raise amount => "Raise(" ++ toString amount ++ ")"
  | .allIn amount => "AllIn(" ++ toString amount ++ ")"

structure LoggedClient where
  client : ProjectionClient
  activity : List String
  deriving DecidableEq, Repr

namespace LoggedClient

def bootstrap (snapshot : SnapshotEnvelope) (streamSequence : Nat) : Except ProjectionClientError LoggedClient :=
  match ProjectionClient.bootstrap snapshot streamSequence with
  | .error error => .error error
  | .ok client =>
    .ok ⟨client, ["SYNC  initial projection / stream " ++ toString streamSequence ++ " / authoritative revision 0"]⟩

variable (s : LoggedClient)

/-- `activity.push`, with the client the call leaves. -/
def push (client : ProjectionClient) (line : String) : LoggedClient := ⟨client, s.activity ++ [line]⟩

def prepareShowdownPreference (commandId : String) (alwaysShow : Bool) :
    Except ProjectionClientError CommandEnvelope × LoggedClient :=
  let (result, client) := s.client.prepareShowdownPreference commandId alwaysShow
  (result, { s with client := client })

def prepareAction (commandId : String) (action : Action) : Except ProjectionClientError CommandEnvelope × LoggedClient :=
  match s.client.prepareAction commandId action with
  | (.error error, client) => (.error error, { s with client := client })
  | (.ok command, client) =>
    (.ok command, s.push client ("INTENT  " ++ commandId ++ " / S" ++ toString command.payload.seat.val ++ " / " ++
      debugAction action ++ " / pending revision " ++ toString s.client.snapshot.revision))

def applyResponse (response : AuthorizedTableResponse) : Except ProjectionClientError Unit × LoggedClient :=
  match s.client.applyResponse response with
  | (.error error, client) => (.error error, { s with client := client })
  | (.ok (), client) =>
    (.ok (), s.push client ("AUTHORITY  " ++ (s.client.pending.map (·.commandId)).getD "" ++ " / " ++
      (if response.receipt.acknowledgement.result = .accepted then "accepted" else "rejected") ++
      " / revision " ++ toString client.snapshot.revision))

/-- The line an update leaves, by what becomes of it. -/
def updateLine (update : SubscriptionUpdate) : UpdateDisposition → String
  | .resynchronizationRequired expected received =>
    "STREAM  gap / expected " ++ toString expected ++ " / received " ++ toString received ++ " / resync required"
  | .duplicateOrStale =>
    if update.streamSequence ≤ s.client.lastStreamSequence then
      "STREAM  ignored duplicate/stale sequence " ++ toString update.streamSequence
    else
      "STREAM  ignored revision regression " ++ toString update.snapshot.revision ++ " < " ++ toString s.client.snapshot.revision
  | .applied =>
    "STREAM  sequence " ++ toString update.streamSequence ++ " / revision " ++ toString update.snapshot.revision ++ " / " ++
      reasonLabel update.reason

def applyUpdate (update : SubscriptionUpdate) : Except ProjectionClientError UpdateDisposition × LoggedClient :=
  match s.client.applyUpdate update with
  | (.error error, client) => (.error error, { s with client := client })
  | (.ok disposition, client) => (.ok disposition, s.push client (s.updateLine update disposition))

def resynchronize (snapshot : SnapshotEnvelope) (streamSequence : Nat) : Except ProjectionClientError Unit × LoggedClient :=
  match s.client.resynchronize snapshot streamSequence with
  | (.error error, client) => (.error error, { s with client := client })
  | (.ok (), client) =>
    (.ok (), s.push client ("SYNC  restored at stream " ++ toString streamSequence ++ " / revision " ++
      toString client.snapshot.revision))

def resynchronizeFromUpdate (update : SubscriptionUpdate) : Except ProjectionClientError Unit × LoggedClient :=
  match s.resynchronize update.snapshot update.streamSequence with
  | (.error error, s) => (.error error, s)
  | (.ok (), s) => (.ok (), { s with client := { s.client with deadline := update.deadline } })

def markDisconnected : LoggedClient := s.push s.client.markDisconnected "CONNECTION  disconnected / controls disabled"

end LoggedClient

/-! ## Calls -/

inductive ClientCall where
  | prepareShowdownPreference (commandId : String) (alwaysShow : Bool)
  | prepareAction (commandId : String) (action : Action)
  | applyResponse (response : AuthorizedTableResponse)
  | applyUpdate (update : SubscriptionUpdate)
  | resynchronize (snapshot : SnapshotEnvelope) (streamSequence : Nat)
  | resynchronizeFromUpdate (update : SubscriptionUpdate)
  | markDisconnected
  deriving DecidableEq, Repr

def errorOf {α : Type} : Except ProjectionClientError α → Option ProjectionClientError
  | .error error => some error
  | .ok _ => none

/-- The error a call returns, if any, and the client it leaves. -/
def ClientCall.apply : ClientCall → LoggedClient → Option ProjectionClientError × LoggedClient
  | prepareShowdownPreference id alwaysShow, s =>
    (errorOf (s.prepareShowdownPreference id alwaysShow).1, (s.prepareShowdownPreference id alwaysShow).2)
  | prepareAction id action, s => (errorOf (s.prepareAction id action).1, (s.prepareAction id action).2)
  | applyResponse response, s => (errorOf (s.applyResponse response).1, (s.applyResponse response).2)
  | applyUpdate update, s => (errorOf (s.applyUpdate update).1, (s.applyUpdate update).2)
  | resynchronize snapshot sequence, s => (errorOf (s.resynchronize snapshot sequence).1, (s.resynchronize snapshot sequence).2)
  | resynchronizeFromUpdate update, s => (errorOf (s.resynchronizeFromUpdate update).1, (s.resynchronizeFromUpdate update).2)
  | markDisconnected, s => (none, s.markDisconnected)

/-- Whether the call, accepted, is the next update in order or a resynchronization. -/
def ClientCall.restores (call : ClientCall) (s : LoggedClient) : Bool :=
  (call.apply s).1.isNone &&
    match call with
    | applyUpdate update => update.streamSequence = s.client.lastStreamSequence + 1
    | resynchronize _ _ | resynchronizeFromUpdate _ => true
    | _ => false

namespace LoggedClient

def run (s : LoggedClient) (calls : List ClientCall) : LoggedClient := calls.foldl (fun s call => (call.apply s).2) s

/-- No call of these restores the order. -/
def unrestored (s : LoggedClient) : List ClientCall → Bool
  | [] => true
  | call :: calls => !call.restores s && unrestored (call.apply s).2 calls

/-! ## What a call changes -/

/-- How a call that succeeds changes the client. -/
inductive Changes (client : ProjectionClient) : ClientCall → ProjectionClient → Prop
  | prepares {call : ClientCall} (pending : PendingCommand) : client.connection = .connected → client.pending = none →
      Changes client call { client with pending := some pending }
  | answered {response : AuthorizedTableResponse} (pending : PendingCommand) : client.pending = some pending →
      client.validateIdentityAndAudience response.snapshot = .ok () →
      Changes client (.applyResponse response) { client with
        snapshot := if client.snapshot.revision ≤ response.snapshot.revision then response.snapshot else client.snapshot
        deadline := response.deadline
        lastStreamSequence := max client.lastStreamSequence response.streamSequence
        pending := none }
  | gap {update : SubscriptionUpdate} : client.receivedBroadcast = true → client.lastStreamSequence + 1 < update.streamSequence →
      Changes client (.applyUpdate update) { client with connection := .awaitingResynchronization, pending := none }
  | regressed {update : SubscriptionUpdate} : client.lastStreamSequence < update.streamSequence →
      (client.receivedBroadcast = true → update.streamSequence = client.lastStreamSequence + 1) →
      Changes client (.applyUpdate update) { client with lastStreamSequence := update.streamSequence, receivedBroadcast := true }
  | applied {update : SubscriptionUpdate} (pending : Option PendingCommand) : client.lastStreamSequence < update.streamSequence →
      (client.receivedBroadcast = true → update.streamSequence = client.lastStreamSequence + 1) →
      client.validateIdentityAndAudience update.snapshot = .ok () → client.snapshot.revision ≤ update.snapshot.revision →
      Changes client (.applyUpdate update) ⟨update.snapshot, .connected, pending, update.deadline, update.streamSequence,
        update.reason ≠ .initial⟩
  | restored {call : ClientCall} (snapshot : SnapshotEnvelope) (sequence : Nat) (deadline : Option ActionDeadline) :
      ((∃ sequence, call = .resynchronize snapshot sequence) ∨ ∃ update, call = .resynchronizeFromUpdate update) →
      client.validateIdentityAndAudience snapshot = .ok () → client.snapshot.revision ≤ snapshot.revision →
      Changes client call ⟨snapshot, .connected, none, deadline, sequence, true⟩
  | disconnected : Changes client .markDisconnected { client with connection := .disconnected, pending := none }

/-- A call fails and changes nothing, or succeeds and leaves the client as it was or so changed. -/
def Answers (s : LoggedClient) (call : ClientCall) (result : Option ProjectionClientError × LoggedClient) : Prop :=
  (result.1.isSome = true ∧ result.2 = s) ∨
    (result.1 = none ∧ (result.2.client = s.client ∨ Changes s.client call result.2.client))

section calls
variable {s : LoggedClient} {client : ProjectionClient}

theorem prepareAction_answers (s : LoggedClient) (id : String) (action : Action) :
    Answers s (.prepareAction id action) ((ClientCall.prepareAction id action).apply s) := by
  simp only [ClientCall.apply, prepareAction]
  cases h : s.client.prepareAction id action with
  | mk result client =>
    cases result with
    | error error =>
      obtain rfl := ProjectionClient.prepareAction_error h
      exact Or.inl ⟨rfl, rfl⟩
    | ok command =>
      have hprepares := prepareAction_prepares h
      obtain ⟨action', hclient⟩ := hprepares.pending
      refine Or.inr ⟨rfl, Or.inr ?_⟩
      have hconnected : s.client.connection = .connected := by
        unfold ProjectionClient.prepareAction at h
        split at h
        · cases h
        · cases h
        · assumption
      rw [show (s.push client _).client = client from rfl, hclient]
      exact .prepares _ hconnected hprepares.free

theorem prepareShowdownPreference_answers (s : LoggedClient) (id : String) (alwaysShow : Bool) :
    Answers s (.prepareShowdownPreference id alwaysShow) ((ClientCall.prepareShowdownPreference id alwaysShow).apply s) := by
  simp only [ClientCall.apply, prepareShowdownPreference]
  cases h : s.client.prepareShowdownPreference id alwaysShow with
  | mk result client =>
    cases result with
    | error error =>
      obtain rfl := ProjectionClient.prepareShowdownPreference_error h
      exact Or.inl ⟨rfl, rfl⟩
    | ok command =>
      have hprepares := prepareShowdownPreference_prepares h
      obtain ⟨action', rfl⟩ := hprepares.pending
      refine Or.inr ⟨rfl, Or.inr (.prepares _ ?_ hprepares.free)⟩
      unfold ProjectionClient.prepareShowdownPreference at h
      split at h
      · cases h
      · rename_i hfree
        rw [Bool.or_eq_true, not_or] at hfree
        simpa using hfree.1

theorem applyResponse_answers (s : LoggedClient) (response : AuthorizedTableResponse) :
    Answers s (.applyResponse response) ((ClientCall.applyResponse response).apply s) := by
  simp only [ClientCall.apply, applyResponse, ProjectionClient.applyResponse]
  cases hvalid : s.client.validateIdentityAndAudience response.snapshot with
  | error error => exact Or.inl ⟨rfl, rfl⟩
  | ok _ =>
    dsimp only
    cases hpending : s.client.pending with
    | none => exact Or.inl ⟨rfl, rfl⟩
    | some pending =>
      dsimp only
      by_cases hid : response.receipt.acknowledgement.commandId ≠ some pending.commandId
      · rw [if_pos hid]
        exact Or.inl ⟨rfl, rfl⟩
      · rw [if_neg hid]
        exact Or.inr ⟨rfl, Or.inr (.answered pending hpending hvalid)⟩

theorem applyUpdate_answers (s : LoggedClient) (update : SubscriptionUpdate) :
    Answers s (.applyUpdate update) ((ClientCall.applyUpdate update).apply s) := by
  simp only [ClientCall.apply, applyUpdate, ProjectionClient.applyUpdate]
  cases hvalid : s.client.validateIdentityAndAudience update.snapshot with
  | error error => exact Or.inl ⟨rfl, rfl⟩
  | ok _ =>
    dsimp only
    by_cases hold : update.streamSequence ≤ s.client.lastStreamSequence
    · rw [if_pos hold]
      exact Or.inr ⟨rfl, Or.inl rfl⟩
    rw [if_neg hold]
    by_cases hgap : (s.client.receivedBroadcast && decide (update.streamSequence ≠ s.client.lastStreamSequence + 1)) = true
    · rw [if_pos hgap]
      rw [Bool.and_eq_true, decide_eq_true_eq] at hgap
      exact Or.inr ⟨rfl, Or.inr (.gap hgap.1 (by omega))⟩
    rw [if_neg hgap]
    have hnext : s.client.receivedBroadcast = true → update.streamSequence = s.client.lastStreamSequence + 1 :=
      fun hreceived => by
      rw [hreceived, Bool.true_and, decide_eq_true_eq] at hgap
      omega
    by_cases hregress : update.snapshot.revision < s.client.snapshot.revision
    · rw [if_pos hregress]
      exact Or.inr ⟨rfl, Or.inr (.regressed (by omega) hnext)⟩
    · rw [if_neg hregress]
      exact Or.inr ⟨rfl, Or.inr (.applied _ (by omega) hnext hvalid (by omega))⟩

theorem resynchronize_answers (s : LoggedClient) (snapshot : SnapshotEnvelope) (sequence : Nat) :
    Answers s (.resynchronize snapshot sequence) ((ClientCall.resynchronize snapshot sequence).apply s) := by
  simp only [ClientCall.apply, resynchronize, ProjectionClient.resynchronize]
  cases hvalid : s.client.validateIdentityAndAudience snapshot with
  | error error => exact Or.inl ⟨rfl, rfl⟩
  | ok _ =>
    dsimp only
    by_cases hregress : snapshot.revision < s.client.snapshot.revision
    · rw [if_pos hregress]
      exact Or.inl ⟨rfl, rfl⟩
    · rw [if_neg hregress]
      exact Or.inr ⟨rfl, Or.inr (.restored _ _ _ (Or.inl ⟨_, rfl⟩) hvalid (by omega))⟩

theorem resynchronizeFromUpdate_answers (s : LoggedClient) (update : SubscriptionUpdate) :
    Answers s (.resynchronizeFromUpdate update) ((ClientCall.resynchronizeFromUpdate update).apply s) := by
  simp only [ClientCall.apply, resynchronizeFromUpdate, resynchronize, ProjectionClient.resynchronize]
  cases hvalid : s.client.validateIdentityAndAudience update.snapshot with
  | error error => exact Or.inl ⟨rfl, rfl⟩
  | ok _ =>
    dsimp only
    by_cases hregress : update.snapshot.revision < s.client.snapshot.revision
    · rw [if_pos hregress]
      exact Or.inl ⟨rfl, rfl⟩
    · rw [if_neg hregress]
      exact Or.inr ⟨rfl, Or.inr (.restored update.snapshot _ _ (Or.inr ⟨_, rfl⟩) hvalid (by omega))⟩

theorem apply_answers (s : LoggedClient) (call : ClientCall) : Answers s call (call.apply s) := by
  cases call with
  | prepareShowdownPreference id alwaysShow => exact prepareShowdownPreference_answers s id alwaysShow
  | prepareAction id action => exact prepareAction_answers s id action
  | applyResponse response => exact applyResponse_answers s response
  | applyUpdate update => exact applyUpdate_answers s update
  | resynchronize snapshot sequence => exact resynchronize_answers s snapshot sequence
  | resynchronizeFromUpdate update => exact resynchronizeFromUpdate_answers s update
  | markDisconnected => exact Or.inr ⟨rfl, Or.inr .disconnected⟩

/-! ## The snapshot -/

/-- The same table, hand and audience, at no earlier revision. -/
structure Follows (earlier later : ProjectionClient) : Prop where
  tableId : later.snapshot.tableId = earlier.snapshot.tableId
  handId : later.snapshot.handId = earlier.snapshot.handId
  audience : later.snapshot.snapshot.audience = earlier.snapshot.snapshot.audience
  revision : earlier.snapshot.revision ≤ later.snapshot.revision

theorem Follows.of_same {earlier later : ProjectionClient} (h : later.snapshot = earlier.snapshot) : Follows earlier later := by
  constructor <;> rw [h]

theorem Follows.trans {first second third : ProjectionClient} (a : Follows first second) (b : Follows second third) :
    Follows first third :=
  ⟨b.tableId.trans a.tableId, b.handId.trans a.handId, b.audience.trans a.audience, Nat.le_trans a.revision b.revision⟩

/-- A snapshot that passes the check names the client's own table, hand and audience. -/
theorem follows_of_valid {snapshot : SnapshotEnvelope} {later : ProjectionClient}
    (hvalid : client.validateIdentityAndAudience snapshot = .ok ()) (hsnapshot : later.snapshot = snapshot)
    (hrevision : client.snapshot.revision ≤ snapshot.revision) : Follows client later := by
  unfold ProjectionClient.validateIdentityAndAudience at hvalid
  split at hvalid
  · cases hvalid
  split at hvalid
  · cases hvalid
  rename_i hidentity
  split at hvalid
  · cases hvalid
  rename_i haudience
  rw [not_or, not_not, not_not] at hidentity
  rw [not_not] at haudience
  constructor <;> rw [hsnapshot]
  · exact hidentity.1
  · exact hidentity.2
  · exact haudience
  · exact hrevision

theorem Changes.follows {call : ClientCall} {later : ProjectionClient} (hc : Changes client call later) :
    Follows client later := by
  cases hc with
  | prepares _ _ _ => exact .of_same rfl
  | @answered response _ _ hvalid =>
    by_cases hle : client.snapshot.revision ≤ response.snapshot.revision
    · exact follows_of_valid hvalid (if_pos hle) hle
    · exact .of_same (if_neg hle)
  | gap _ _ => exact .of_same rfl
  | regressed _ _ => exact .of_same rfl
  | applied _ _ _ hvalid hle => exact follows_of_valid hvalid rfl hle
  | restored _ _ _ _ hvalid hle => exact follows_of_valid hvalid rfl hle
  | disconnected => exact .of_same rfl

theorem apply_follows (s : LoggedClient) (call : ClientCall) : Follows s.client (call.apply s).2.client := by
  rcases apply_answers s call with ⟨_, hsame⟩ | ⟨_, hsame | hchanges⟩
  · rw [hsame]; exact .of_same rfl
  · exact .of_same (by rw [hsame])
  · exact hchanges.follows

theorem run_follows (s : LoggedClient) (calls : List ClientCall) : Follows s.client (s.run calls).client := by
  induction calls generalizing s with
  | nil => exact .of_same rfl
  | cons call calls ih => exact (apply_follows s call).trans (ih _)

/-! ## Gaps -/

/-- The client waits at the gap it met as `gap`: nothing adopted, the controls shut. -/
structure Barred (gap client : ProjectionClient) : Prop where
  snapshot : client.snapshot = gap.snapshot
  sequence : client.lastStreamSequence = gap.lastStreamSequence
  broadcast : client.receivedBroadcast = true
  connection : client.connection ≠ .connected
  pending : client.pending = none

theorem Barred.controls {gap : ProjectionClient} (hb : Barred gap client) : client.controlsEnabled = false := by
  simp [ProjectionClient.controlsEnabled, hb.connection]

/-- Only the next update or a resynchronization ends the wait. -/
theorem Barred.apply {gap : ProjectionClient} (hb : Barred gap s.client) {call : ClientCall} (hno : call.restores s = false) :
    Barred gap (call.apply s).2.client := by
  rcases apply_answers s call with ⟨_, hsame⟩ | ⟨hok, hsame | hchanges⟩
  · rw [hsame]; exact hb
  · rw [hsame]; exact hb
  simp only [ClientCall.restores, hok, Option.isNone_none, Bool.true_and] at hno
  generalize (call.apply s).2.client = client at hchanges
  cases hchanges with
  | prepares _ hconnected _ => exact absurd hconnected hb.connection
  | answered _ hpending _ => rw [hb.pending] at hpending; cases hpending
  | gap hreceived _ => exact ⟨hb.snapshot, hb.sequence, hreceived, by simp, rfl⟩
  | regressed _ hnext => exact absurd (hnext hb.broadcast) (by simpa using hno)
  | applied _ _ hnext _ _ => exact absurd (hnext hb.broadcast) (by simpa using hno)
  | restored _ _ _ hresync _ _ =>
    obtain ⟨_, rfl⟩ | ⟨_, rfl⟩ := hresync
    · cases hno
    · cases hno
  | disconnected => exact ⟨hb.snapshot, hb.sequence, hb.broadcast, by simp, rfl⟩

theorem Barred.run {gap : ProjectionClient} (hb : Barred gap s.client) {calls : List ClientCall}
    (hno : s.unrestored calls = true) :
    Barred gap (s.run calls).client := by
  induction calls generalizing s with
  | nil => exact hb
  | cons call calls ih =>
    simp only [unrestored, Bool.and_eq_true, Bool.not_eq_true'] at hno
    exact ih (hb.apply hno.1) hno.2

/-- A gap found bars the client. -/
theorem applyUpdate_gap {update : SubscriptionUpdate} {expected received : Nat}
    (h : (s.applyUpdate update).1 = .ok (.resynchronizationRequired expected received)) :
    Barred s.client (s.applyUpdate update).2.client := by
  simp only [applyUpdate, ProjectionClient.applyUpdate] at h ⊢
  cases hvalid : s.client.validateIdentityAndAudience update.snapshot with
  | error error => rw [hvalid] at h; cases h
  | ok _ =>
    rw [hvalid] at h
    dsimp only at h ⊢
    by_cases hold : update.streamSequence ≤ s.client.lastStreamSequence
    · rw [if_pos hold] at h; cases h
    rw [if_neg hold] at h ⊢
    by_cases hgap : (s.client.receivedBroadcast && decide (update.streamSequence ≠ s.client.lastStreamSequence + 1)) = true
    · rw [if_pos hgap]
      rw [Bool.and_eq_true] at hgap
      exact ⟨rfl, rfl, hgap.1, by simp [push], rfl⟩
    rw [if_neg hgap] at h
    by_cases hregress : update.snapshot.revision < s.client.snapshot.revision
    · rw [if_pos hregress] at h; cases h
    · rw [if_neg hregress] at h; cases h

/-! ## Every run of calls -/

/-- What holds wherever calls have led a client. -/
structure Atomic (s : LoggedClient) : Prop where
  /-- An update that is not newer changes the log at most. -/
  stale : ∀ update, update.streamSequence ≤ s.client.lastStreamSequence → (s.applyUpdate update).2.client = s.client
  /-- From a gap to the call that restores the order, nothing is adopted and nothing enabled. -/
  gap : ∀ update expected received, (s.applyUpdate update).1 = .ok (.resynchronizationRequired expected received) →
    ∀ calls, (s.applyUpdate update).2.unrestored calls = true →
      ((s.applyUpdate update).2.run calls).client.snapshot = s.client.snapshot ∧
        ((s.applyUpdate update).2.run calls).client.controlsEnabled = false ∧
        ∀ beyond, ((s.applyUpdate update).2.run calls).client.lastStreamSequence + 1 < beyond.streamSequence →
          (((s.applyUpdate update).2.run calls).applyUpdate beyond).2.client.snapshot = s.client.snapshot
  /-- Nothing is prepared while a command is pending. -/
  pending : s.client.pending.isSome = true → ∀ id action alwaysShow,
    (errorOf (s.prepareAction id action).1).isSome = true ∧ (errorOf (s.prepareShowdownPreference id alwaysShow).1).isSome = true
  /-- A call that fails changes nothing. -/
  failed : ∀ call, (ClientCall.apply call s).1.isSome = true → (ClientCall.apply call s).2 = s

theorem atomic (s : LoggedClient) : Atomic s := by
  refine ⟨fun update hold => ?_, fun update expected received hgap calls hno => ?_, fun hpending id action alwaysShow => ?_,
    fun call hfailed => ?_⟩
  · simp only [applyUpdate, ProjectionClient.applyUpdate, if_pos hold]
    cases s.client.validateIdentityAndAudience update.snapshot <;> rfl
  · have hbarred := (applyUpdate_gap hgap).run hno
    refine ⟨hbarred.snapshot, hbarred.controls, fun beyond hbeyond => ?_⟩
    have hnot : (ClientCall.applyUpdate beyond).restores ((s.applyUpdate update).2.run calls) = false := by
      have hne : beyond.streamSequence ≠ ((s.applyUpdate update).2.run calls).client.lastStreamSequence + 1 := by omega
      simp [ClientCall.restores, hne]
    have hstill := hbarred.apply hnot
    exact hstill.snapshot
  · have hbusy : s.client.pending ≠ none := fun e => by rw [e] at hpending; cases hpending
    constructor
    · simp only [prepareAction]
      cases h : s.client.prepareAction id action with
      | mk result client =>
        cases result with
        | error error => rfl
        | ok command => exact absurd (prepareAction_prepares h).free hbusy
    · simp only [prepareShowdownPreference]
      cases h : s.client.prepareShowdownPreference id alwaysShow with
      | mk result client =>
        cases result with
        | error error => rfl
        | ok command => exact absurd (prepareShowdownPreference_prepares h).free hbusy
  · rcases apply_answers s call with ⟨_, hsame⟩ | ⟨hok, _⟩
    · exact hsame
    · rw [hok] at hfailed; cases hfailed

/-- Any calls keep a client on its table, hand and audience, never take it back a revision, and
    leave it as careful as it was. -/
theorem calls_keep_order (s : LoggedClient) (calls : List ClientCall) :
    Follows s.client (s.run calls).client ∧ Atomic (s.run calls) :=
  ⟨run_follows s calls, atomic _⟩

end calls

end LoggedClient

end OpenFelt
