/-
  OpenFelt.Protocol.ExactlyOnce — an authority acts on each command once.

  An authority is a `Store` whose subject is the hand and whose journal is the ledger
  (`store`), and each call on it is one of the store's steps (`AuthorityOp.steps`).
  Proved: `run_exactly_once`, over any sequence of submissions and showdown advances.
-/

import OpenFelt.Game.Runs
import OpenFelt.Lib.Idempotent
import OpenFelt.Protocol.Authority

namespace OpenFelt

open Idempotent

/-- A call on the authority; `server` submissions may use the reserved ids. -/
inductive AuthorityOp where
  | submit (envelope : CommandEnvelope) (server : Bool)
  | advanceShowdown
  deriving DecidableEq, Repr

namespace AuthorityOp

def apply : AuthorityOp → ProtocolAuthority → ProtocolAuthority
  | submit envelope server, a => (a.submitFrom envelope server).2
  | advanceShowdown, a => a.advanceShowdown.2

/-- The command id submitted. -/
def commandId : AuthorityOp → Option String
  | submit envelope _ => some envelope.commandId
  | advanceShowdown => none

/-- A submission accepted here and now, not the replay of an earlier answer. -/
def accepted (op : AuthorityOp) (a : ProtocolAuthority) : Bool :=
  match op with
  | submit envelope server =>
    let acknowledgement := (a.submitFrom envelope server).1.acknowledgement
    acknowledgement.result = .accepted ∧ acknowledgement.delivery = .processed
  | advanceShowdown => false

/-- A showdown advance that published an event. -/
def advanced (op : AuthorityOp) (a : ProtocolAuthority) : Bool :=
  match op with
  | submit _ _ => false
  | advanceShowdown => a.advanceShowdown.1.isSome

/-- The call moved the hand or the revision. -/
def changes (op : AuthorityOp) (a : ProtocolAuthority) : Bool :=
  (op.apply a).hand != a.hand || (op.apply a).revision != a.revision

end AuthorityOp

namespace ProtocolAuthority

def run (a : ProtocolAuthority) (ops : List AuthorityOp) : ProtocolAuthority := ops.foldl (fun a op => op.apply a) a

/-- Each call of a run with the authority it found. -/
def turns (a : ProtocolAuthority) : List AuthorityOp → List (ProtocolAuthority × AuthorityOp)
  | [] => []
  | op :: ops => (a, op) :: turns (op.apply a) ops

def store (a : ProtocolAuthority) : Store String RecordedCommand MultiwayHand := ⟨a.revision, a.hand, a.recordedCommands⟩

section submissions
variable {a : ProtocolAuthority} {envelope : CommandEnvelope} {server : Bool} {op : AuthorityOp} {ops : List AuthorityOp}

/-! ## What a call does -/

/-- A payload the hand refuses leaves it as it was. -/
theorem applyPayload_refused {payload : CommandPayload} {error : CommandError}
    (hr : (a.applyPayload payload).1 = .error error) : (a.applyPayload payload).2 = a.hand := by
  cases payload with
  | act seat action =>
    refine @MultiwayHand.apply_refused a.hand (.command ⟨seat, action⟩) ?_
    simp only [applyPayload] at hr
    simp [HandOp.apply, hr, Except.isOk, Except.toBool]
  | showdownPreference seat alwaysShow =>
    refine @MultiwayHand.apply_refused a.hand (.alwaysShow seat alwaysShow) ?_
    simp only [applyPayload] at hr
    simp [HandOp.apply, hr, Except.isOk, Except.toBool]

/-- A command executed is refused with nothing changed, or accepted at the next revision. -/
theorem execute_cases (a : ProtocolAuthority) (envelope : CommandEnvelope) :
    (∃ error, a.execute envelope = (.rejected error, a)) ∨
      ∃ hand event, a.execute envelope = (.accepted event, { a with hand := hand, revision := a.revision + 1 }) := by
  simp only [execute]
  split
  · exact Or.inl ⟨_, rfl⟩
  · cases hp : a.applyPayload envelope.payload with
    | mk result hand =>
      cases result with
      | ok u => exact Or.inr ⟨_, _, rfl⟩
      | error e =>
        have hsame : hand = a.hand := by
          have := @applyPayload_refused a envelope.payload e (by rw [hp])
          rw [hp] at this; exact this
        exact Or.inl ⟨_, by rw [hsame]⟩

/-- Everything a submission can do. -/
inductive Submitted (a : ProtocolAuthority) (envelope : CommandEnvelope) (server : Bool) :
    SubmissionReceipt × ProtocolAuthority → Prop
  | unframed (error : ErrorEnvelope) : a.framingRefusal envelope server = some error →
      Submitted a envelope server (a.receipt (.rejected error) .processed, a)
  | replayed (recorded : RecordedCommand) : a.framingRefusal envelope server = none →
      a.recorded envelope.commandId = some recorded → recorded.fingerprint = envelope.fingerprint →
      Submitted a envelope server (a.receipt recorded.outcome .replayed, a)
  | conflicting (recorded : RecordedCommand) (error : ErrorEnvelope) : a.framingRefusal envelope server = none →
      a.recorded envelope.commandId = some recorded → recorded.fingerprint ≠ envelope.fingerprint →
      error.error.code = .commandIdConflict → Submitted a envelope server (a.receipt (.rejected error) .processed, a)
  | full (error : ErrorEnvelope) : a.framingRefusal envelope server = none → a.recorded envelope.commandId = none →
      Submitted a envelope server (a.receipt (.rejected error) .processed, a)
  | refused (error : ErrorEnvelope) : a.framingRefusal envelope server = none → a.recorded envelope.commandId = none →
      Submitted a envelope server
        (a.receipt (.rejected error) .processed, a.record envelope.commandId ⟨envelope.fingerprint, .rejected error⟩)
  | accepted (hand : MultiwayHand) (event : EventEnvelope) : a.framingRefusal envelope server = none →
      a.recorded envelope.commandId = none →
      Submitted a envelope server (a.receipt (.accepted event) .processed,
        { a with hand := hand, revision := a.revision + 1 }.record envelope.commandId ⟨envelope.fingerprint, .accepted event⟩)

theorem submitFrom_cases (a : ProtocolAuthority) (envelope : CommandEnvelope) (server : Bool) :
    Submitted a envelope server (a.submitFrom envelope server) := by
  simp only [submitFrom]
  cases hframe : a.framingRefusal envelope server with
  | some error => exact .unframed error hframe
  | none =>
    cases hrec : a.recorded envelope.commandId with
    | some recorded =>
      dsimp only
      split
      · rename_i hsame; exact .replayed recorded hframe hrec hsame
      · rename_i hdiff; exact .conflicting recorded _ hframe hrec hdiff rfl
    | none =>
      dsimp only
      split
      · exact .full _ hframe hrec
      · rcases a.execute_cases envelope with ⟨error, he⟩ | ⟨hand, event, he⟩
        · rw [he]; exact .refused error hframe hrec
        · rw [he]; exact .accepted hand event hframe hrec

theorem advanceShowdown_cases (a : ProtocolAuthority) :
    a.advanceShowdown = (none, a) ∨
      ∃ event hand, a.advanceShowdown = (some event, { a with hand := hand, revision := a.revision + 1 }) := by
  simp only [advanceShowdown]
  cases hadv : a.hand.advanceShowdown with
  | mk moved hand =>
    cases moved with
    | true => exact Or.inr ⟨_, _, rfl⟩
    | false =>
      have hsame : hand = a.hand := by
        have := @MultiwayHand.apply_refused a.hand .advance (by rw [HandOp.apply, hadv])
        rw [HandOp.apply, hadv] at this; exact this
      exact Or.inl (by rw [hsame])

end submissions

end ProtocolAuthority

open ProtocolAuthority in
/-- The store's event for a call. -/
def AuthorityOp.event (op : AuthorityOp) (a : ProtocolAuthority) : Event String :=
  match op with
  | submit envelope _ =>
    bif op.accepted a then .applied envelope.commandId
    else bif (op.apply a).recordedCommands.length == a.recordedCommands.length then .quiet
    else .noted envelope.commandId
  | advanceShowdown => bif op.advanced a then .moved else .quiet

namespace ProtocolAuthority

section runs
variable {a : ProtocolAuthority} {envelope : CommandEnvelope} {server : Bool} {op : AuthorityOp} {ops : List AuthorityOp}

/-! ## An authority is a store -/

theorem submit_step (a : ProtocolAuthority) (envelope : CommandEnvelope) (server : Bool) :
    Step a.store ((AuthorityOp.submit envelope server).event a) ((AuthorityOp.submit envelope server).apply a).store := by
  have hcases := a.submitFrom_cases envelope server
  simp only [AuthorityOp.event, AuthorityOp.accepted, AuthorityOp.apply]
  generalize a.submitFrom envelope server = s at hcases
  cases hcases with
  | replayed recorded _ _ _ => simpa [receipt] using Step.quiet a.store
  | unframed _ _ | conflicting _ _ _ _ _ _ | full _ _ _ => simpa [receipt, CommandOutcome.result] using Step.quiet a.store
  | refused error _ hnew =>
    have hgrown : ((a.recordedCommands ++
        [(envelope.commandId, (⟨envelope.fingerprint, .rejected error⟩ : RecordedCommand))]).length ==
        a.recordedCommands.length) = false := by simp
    simp only [record, hgrown, cond_false]
    exact .noted a.store envelope.commandId _ hnew
  | accepted hand event _ hnew => exact .applied a.store envelope.commandId _ hand hnew

theorem advance_step (a : ProtocolAuthority) :
    Step a.store (AuthorityOp.advanceShowdown.event a) (AuthorityOp.advanceShowdown.apply a).store := by
  simp only [AuthorityOp.event, AuthorityOp.advanced, AuthorityOp.apply]
  rcases a.advanceShowdown_cases with he | ⟨event, hand, he⟩
  · rw [he]; exact .quiet _
  · rw [he]; exact .moved a.store hand

theorem apply_step (a : ProtocolAuthority) (op : AuthorityOp) : Step a.store (op.event a) (op.apply a).store := by
  cases op with
  | submit envelope server => exact a.submit_step envelope server
  | advanceShowdown => exact a.advance_step

/-- The store's events along a run. -/
def events (a : ProtocolAuthority) (ops : List AuthorityOp) : List (Event String) :=
  (a.turns ops).map fun turn => turn.2.event turn.1

theorem run_steps (a : ProtocolAuthority) (ops : List AuthorityOp) : Run a.store (a.events ops) (a.run ops).store := by
  induction ops generalizing a with
  | nil => exact .nil _
  | cons op ops ih => exact .cons (a.apply_step op) (ih (op.apply a))

/-- Only an accepted command or an effective advance moves the hand or the revision. -/
theorem event_of_changes (hc : op.changes a = true) : (op.event a).effective = true := by
  by_cases he : (op.event a).effective = true
  · exact he
  · have hstep := a.apply_step op
    have h1 := hstep.subject (by simpa using he)
    have h2 := hstep.revision
    rw [if_neg he] at h2
    have hh : (op.apply a).hand = a.hand := h1
    have hr : (op.apply a).revision = a.revision := h2
    simp [AuthorityOp.changes, hh, hr] at hc

theorem event_effective (op : AuthorityOp) (a : ProtocolAuthority) :
    (op.event a).effective = (op.accepted a || op.advanced a) := by
  cases op with
  | advanceShowdown =>
    simp only [AuthorityOp.event, AuthorityOp.accepted, Bool.false_or]
    cases AuthorityOp.advanceShowdown.advanced a <;> rfl
  | submit envelope server =>
    simp only [AuthorityOp.event, AuthorityOp.advanced, Bool.or_false]
    cases (AuthorityOp.submit envelope server).accepted a with
    | true => rfl
    | false => cases (((AuthorityOp.submit envelope server).apply a).recordedCommands.length == a.recordedCommands.length) <;> rfl

theorem event_applied {key : String} (hid : op.commandId = some key) (hc : op.changes a = true) :
    op.event a = .applied key := by
  have he := event_of_changes hc
  cases op with
  | advanceShowdown => cases hid
  | submit envelope server =>
    cases hid
    rw [event_effective] at he
    simp only [AuthorityOp.advanced, Bool.or_false] at he
    simp only [AuthorityOp.event, he, cond_true]

/-! ## An authority's hand is a run of the hand -/

theorem applyPayload_hand (a : ProtocolAuthority) (payload : CommandPayload) :
    ∃ op : HandOp, (a.applyPayload payload).2 = (op.apply a.hand).2 := by
  cases payload with
  | act seat action => exact ⟨.command ⟨seat, action⟩, rfl⟩
  | showdownPreference seat alwaysShow => exact ⟨.alwaysShow seat alwaysShow, rfl⟩

theorem execute_hand (a : ProtocolAuthority) (envelope : CommandEnvelope) :
    (a.execute envelope).2.hand = a.hand ∨ ∃ op : HandOp, (a.execute envelope).2.hand = (op.apply a.hand).2 := by
  obtain ⟨op, hop⟩ := a.applyPayload_hand envelope.payload
  simp only [execute]
  split
  · exact Or.inl rfl
  · refine Or.inr ⟨op, ?_⟩
    cases hp : a.applyPayload envelope.payload with
    | mk result hand =>
      rw [hp] at hop
      cases result <;> exact hop

theorem submitFrom_hand (a : ProtocolAuthority) (envelope : CommandEnvelope) (server : Bool) :
    (a.submitFrom envelope server).2.hand = a.hand ∨
      ∃ op : HandOp, (a.submitFrom envelope server).2.hand = (op.apply a.hand).2 := by
  simp only [submitFrom]
  split
  · exact Or.inl rfl
  split
  · split <;> exact Or.inl rfl
  split
  · exact Or.inl rfl
  · exact a.execute_hand envelope

theorem apply_hand (op : AuthorityOp) (a : ProtocolAuthority) :
    (op.apply a).hand = a.hand ∨ ∃ call : HandOp, (op.apply a).hand = (call.apply a.hand).2 := by
  cases op with
  | submit envelope server => exact a.submitFrom_hand envelope server
  | advanceShowdown =>
    refine Or.inr ⟨.advance, ?_⟩
    simp only [AuthorityOp.apply, advanceShowdown, HandOp.apply]
    split <;> rename_i he <;> rw [he]

theorem apply_stage {c : HandConfig} {posted : Nat} (hs : MultiwayHand.Stage c posted a.hand) (op : AuthorityOp) :
    MultiwayHand.Stage c posted (op.apply a).hand := by
  rcases apply_hand op a with he | ⟨call, he⟩
  · rw [he]; exact hs
  · rw [he]; exact hs.step call

/-! ## Each command once -/

/-- The ledger keeps its entries. -/
theorem run_recorded {key : String} {recorded : RecordedCommand} (hr : a.recorded key = some recorded)
    (ops : List AuthorityOp) : (a.run ops).recorded key = some recorded := (a.run_steps ops).answer hr

theorem apply_names (op : AuthorityOp) (a : ProtocolAuthority) :
    (op.apply a).tableId = a.tableId ∧ (op.apply a).handId = a.handId := by
  cases op with
  | submit envelope server =>
    have hcases := a.submitFrom_cases envelope server
    simp only [AuthorityOp.apply]
    generalize a.submitFrom envelope server = s at hcases
    cases hcases <;> exact ⟨rfl, rfl⟩
  | advanceShowdown =>
    simp only [AuthorityOp.apply]
    rcases a.advanceShowdown_cases with he | ⟨_, _, he⟩ <;> rw [he] <;> exact ⟨rfl, rfl⟩

theorem run_names (a : ProtocolAuthority) (ops : List AuthorityOp) :
    (a.run ops).tableId = a.tableId ∧ (a.run ops).handId = a.handId := by
  induction ops generalizing a with
  | nil => exact ⟨rfl, rfl⟩
  | cons op ops ih =>
    obtain ⟨h1, h2⟩ := ih (op.apply a)
    obtain ⟨g1, g2⟩ := apply_names op a
    exact ⟨h1.trans g1, h2.trans g2⟩

theorem framingRefusal_none : a.framingRefusal envelope server = none ↔
    envelope.version = protocolVersion ∧ validCommandId envelope.commandId = true ∧
      (server = true ∨ reservedServerCommandId envelope.commandId = false) ∧
      envelope.tableId = a.tableId ∧ envelope.handId = a.handId := by
  simp only [framingRefusal]
  by_cases hversion : envelope.version = protocolVersion
  · cases hvalid : validCommandId envelope.commandId
    · simp [hversion]
    · cases server <;> cases reservedServerCommandId envelope.commandId <;> simp [hversion, ite_eq_iff]
  · simp [hversion]

/-- A command keeps its framing: nothing it is checked against changes. -/
theorem framed_run (hf : a.framingRefusal envelope server = none) (ops : List AuthorityOp) :
    (a.run ops).framingRefusal envelope server = none := by
  obtain ⟨h1, h2⟩ := a.run_names ops
  rw [framingRefusal_none] at hf ⊢
  rw [h1, h2]; exact hf

theorem submitFrom_replays {recorded : RecordedCommand} (hf : a.framingRefusal envelope server = none)
    (hr : a.recorded envelope.commandId = some recorded) (hsame : recorded.fingerprint = envelope.fingerprint) :
    a.submitFrom envelope server = (a.receipt recorded.outcome .replayed, a) := by
  simp only [submitFrom, hf, hr, hsame, if_true]

/-- What the ledger gained is the command with its answer. -/
theorem recorded_of_grown (hg : (a.submitFrom envelope server).2.recordedCommands ≠ a.recordedCommands) :
    a.framingRefusal envelope server = none ∧ (a.submitFrom envelope server).2.recorded envelope.commandId =
      some ⟨envelope.fingerprint, (a.submitFrom envelope server).1.outcome⟩ := by
  have hcases := a.submitFrom_cases envelope server
  generalize a.submitFrom envelope server = s at hcases hg
  cases hcases with
  | unframed _ _ => exact absurd rfl hg
  | replayed _ _ _ _ => exact absurd rfl hg
  | conflicting _ _ _ _ _ _ => exact absurd rfl hg
  | full _ _ _ => exact absurd rfl hg
  | refused error hf hnew =>
    simp only [recorded] at hnew
    exact ⟨hf, by simp [recorded, record, receipt, List.lookup_append, hnew]⟩
  | accepted hand event hf hnew =>
    simp only [recorded] at hnew
    exact ⟨hf, by simp [recorded, record, receipt, List.lookup_append, hnew]⟩

theorem submitFrom_rejected {error : ErrorEnvelope} (hr : (a.submitFrom envelope server).1.outcome = .rejected error) :
    (a.submitFrom envelope server).2.hand = a.hand ∧ (a.submitFrom envelope server).2.revision = a.revision := by
  have hcases := a.submitFrom_cases envelope server
  generalize a.submitFrom envelope server = s at hcases hr
  cases hcases with
  | accepted hand event _ _ => cases hr
  | _ => exact ⟨rfl, rfl⟩

theorem submitFrom_conflicts {recorded : RecordedCommand} (hr : a.recorded envelope.commandId = some recorded)
    (hdiff : recorded.fingerprint ≠ envelope.fingerprint) :
    (a.submitFrom envelope server).2 = a ∧ ∃ error, (a.submitFrom envelope server).1.outcome = .rejected error ∧
      (a.framingRefusal envelope server = none → error.error.code = .commandIdConflict) := by
  have hcases := a.submitFrom_cases envelope server
  generalize a.submitFrom envelope server = s at hcases
  cases hcases with
  | unframed error hf => exact ⟨rfl, error, rfl, fun hn => by rw [hf] at hn; cases hn⟩
  | replayed other _ ho hsame =>
    rw [hr] at ho
    exact absurd (Option.some.inj ho ▸ hsame) hdiff
  | conflicting _ error _ _ _ hcode => exact ⟨rfl, error, rfl, fun _ => hcode⟩
  | full _ _ hn => rw [hr] at hn; cases hn
  | refused _ _ hn => rw [hr] at hn; cases hn
  | accepted _ _ _ hn => rw [hr] at hn; cases hn

/-- What holds once `ops` have been put to the authority `start`. -/
structure ExactlyOnce (start : ProtocolAuthority) (ops : List AuthorityOp) : Prop where
  /-- No command id has changed the hand or the revision twice. -/
  once : ∀ key : String,
    (start.turns ops).countP (fun turn => turn.2.commandId == some key && turn.2.changes turn.1) ≤ 1
  /-- The revision counts the accepted commands and the effective advances. -/
  counts : (start.run ops).revision =
    (start.turns ops).countP (fun turn => turn.2.accepted turn.1) + (start.turns ops).countP fun turn => turn.2.advanced turn.1
  /-- A recorded command submitted again, now or after any other calls, gets its stored
      outcome and changes nothing. -/
  replays : ∀ (envelope : CommandEnvelope) (server : Bool) (recorded : RecordedCommand),
    (start.run ops).framingRefusal envelope server = none → (start.run ops).recorded envelope.commandId = some recorded →
      recorded.fingerprint = envelope.fingerprint → ∀ more : List AuthorityOp,
      (((start.run ops).run more).submitFrom envelope server).1.outcome = recorded.outcome ∧
        (((start.run ops).run more).submitFrom envelope server).2 = (start.run ops).run more
  /-- In particular so does what a submission has just put into the ledger. -/
  resubmits : ∀ (envelope : CommandEnvelope) (server : Bool),
    ((start.run ops).submitFrom envelope server).2.recordedCommands ≠ (start.run ops).recordedCommands →
      ∀ more : List AuthorityOp, let later := ((start.run ops).submitFrom envelope server).2.run more
      (later.submitFrom envelope server).1.outcome = ((start.run ops).submitFrom envelope server).1.outcome ∧
        (later.submitFrom envelope server).2 = later
  /-- A recorded id with another body is refused, and nothing changes. -/
  conflicts : ∀ (envelope : CommandEnvelope) (server : Bool) (recorded : RecordedCommand),
    (start.run ops).recorded envelope.commandId = some recorded → recorded.fingerprint ≠ envelope.fingerprint →
      ((start.run ops).submitFrom envelope server).2 = start.run ops ∧
        ∃ error, ((start.run ops).submitFrom envelope server).1.outcome = .rejected error ∧
          ((start.run ops).framingRefusal envelope server = none → error.error.code = .commandIdConflict)
  /-- A rejected submission leaves the hand and the revision. -/
  rejects : ∀ (envelope : CommandEnvelope) (server : Bool) (error : ErrorEnvelope),
    ((start.run ops).submitFrom envelope server).1.outcome = .rejected error →
      ((start.run ops).submitFrom envelope server).2.hand = (start.run ops).hand ∧
        ((start.run ops).submitFrom envelope server).2.revision = (start.run ops).revision
  /-- One revision, one hand. -/
  publishes : ∀ more : List AuthorityOp, ((start.run ops).run more).revision = (start.run ops).revision →
    ((start.run ops).run more).hand = (start.run ops).hand

theorem changes_once (start : ProtocolAuthority) (ops : List AuthorityOp) (key : String) :
    (start.turns ops).countP (fun turn => turn.2.commandId == some key && turn.2.changes turn.1) ≤ 1 := by
  have hle : (start.turns ops).countP (fun turn => turn.2.commandId == some key && turn.2.changes turn.1) ≤
      (start.events ops).count (.applied key) := by
    rw [events, List.count, List.countP_map]
    refine List.countP_mono_left fun turn _ ht => ?_
    obtain ⟨hid, hc⟩ := Bool.and_eq_true _ _ ▸ ht
    simpa using event_applied (by simpa using hid) hc
  exact hle.trans ((start.run_steps ops).applied_once key)

theorem revision_counts (start : ProtocolAuthority) (ops : List AuthorityOp) :
    (start.run ops).revision = start.revision + ((start.turns ops).countP (fun turn => turn.2.accepted turn.1) +
      (start.turns ops).countP fun turn => turn.2.advanced turn.1) := by
  have hcount : (start.run ops).revision = start.revision + (start.events ops).countP Event.effective :=
    (start.run_steps ops).revision
  rw [hcount, events, List.countP_map]
  congr 1
  induction start.turns ops with
  | nil => rfl
  | cons turn turns ih =>
    have hdisjoint : turn.2.accepted turn.1 = true → turn.2.advanced turn.1 = false := by
      cases turn.2 <;> simp [AuthorityOp.accepted, AuthorityOp.advanced]
    simp only [List.countP_cons, ih, Function.comp, event_effective]
    cases h1 : turn.2.accepted turn.1
    · simp only [Bool.false_or, Bool.false_eq_true, if_false]; omega
    · simp only [hdisjoint h1, Bool.or_false, Bool.false_eq_true, if_true, if_false]; omega

/-- Every authority put into service, whatever is submitted to it in whatever order and
    however its showdown is advanced, acts on each command exactly once. -/
theorem run_exactly_once (tableId : TableId) (handId : HandId) (hand : MultiwayHand) (ops : List AuthorityOp) :
    ExactlyOnce (new tableId handId hand) ops := by
  refine ⟨changes_once _ ops, ?_, fun envelope server recorded hf hr hsame more => ?_, fun envelope server hg more => ?_,
    fun envelope server recorded hr hdiff => submitFrom_conflicts hr hdiff,
    fun envelope server error hr => submitFrom_rejected hr, fun more he => ?_⟩
  · have := revision_counts (new tableId handId hand) ops
    rw [this]; exact Nat.zero_add _
  · have := submitFrom_replays (framed_run hf more) (run_recorded hr more) hsame
    rw [this]; exact ⟨rfl, rfl⟩
  · obtain ⟨hf, hr⟩ := recorded_of_grown hg
    have hframed : ((((new tableId handId hand).run ops).run [.submit envelope server]).run more).framingRefusal envelope server =
        none := framed_run (framed_run hf [.submit envelope server]) more
    have := submitFrom_replays hframed (run_recorded hr more) rfl
    dsimp only
    exact ⟨congrArg (·.1.outcome) this, congrArg Prod.snd this⟩
  · exact (((new tableId handId hand).run ops).run_steps more).subject he

end runs

end ProtocolAuthority

end OpenFelt
