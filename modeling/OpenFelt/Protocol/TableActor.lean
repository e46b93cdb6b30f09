/-
  OpenFelt.Protocol.TableActor — one table behind a bounded mailbox (`src/table_actor.rs`).

  Translation. The worker is the state of `run_actor`, and one pass of its loop is
  `TableWorker.runActor`; the mailbox and the channels are `Lib/Mailbox`. What a handle's
  method puts into the mailbox is named after it, and `received` is what the method
  returns. `from_slice` is the JSON reader's and a parameter. A counter is a `Nat`.
  - `actor_linearizes`: however callers interleave, the table is where the served calls
    alone, one after another, would leave it, and every caller has that table's answer.
  - `actor_counts`: the metrics are the tally of the answers given.
-/

import OpenFelt.Lib.Mailbox
import OpenFelt.Protocol.Runtime

namespace OpenFelt

open MultiwayHand (Stage)
open Mailbox (Reply Run Serial servedCalls sentCalls stoppedCalls)

def tableMailboxCapacity : Nat := 64

def maxCommandEnvelopeBytes : Nat := 1024

structure DecodeCommandError where
  code : ProtocolErrorCode
  message : String
  deriving DecidableEq, Repr

def malformedCommandError : DecodeCommandError :=
  ⟨.malformedMessage, "command JSON is malformed or does not match protocol v" ++ toString protocolVersion⟩

def decodeCommandJson (fromSlice : List UInt8 → Option CommandEnvelope) (bytes : List UInt8) :
    Except DecodeCommandError CommandEnvelope :=
  if maxCommandEnvelopeBytes < bytes.length then
    .error ⟨.messageTooLarge, "command message exceeds the " ++ toString maxCommandEnvelopeBytes ++ "-byte limit"⟩
  else if bytes.isEmpty then .error malformedCommandError
  else
    match fromSlice bytes with
    | some command => .ok command
    | none => .error malformedCommandError

structure TableActorMetrics where
  processedCommands : Nat
  acceptedCommands : Nat
  rejectedCommands : Nat
  replayedCommands : Nat
  decodeRejections : Nat
  snapshotRequests : Nat
  deriving DecidableEq, Repr

def TableActorMetrics.default : TableActorMetrics := ⟨0, 0, 0, 0, 0, 0⟩

inductive TableActorError where
  | mailboxClosed
  | responseChannelClosed
  | projection (error : ProjectionError)
  | decode (error : DecodeCommandError)
  deriving DecidableEq, Repr

inductive TableActorRequest where
  | advanceShowdown
  | submit (command : CommandEnvelope) (audience : ProjectionAudience) (serverGenerated : Bool)
  | decodeRejected (error : DecodeCommandError)
  | snapshot (audience : ProjectionAudience)
  | metrics
  | shutdown
  deriving DecidableEq, Repr

/-- What the requests' channels carry. -/
inductive TableActorAnswer where
  | event (event : Option EventEnvelope)
  | response (response : TableActorResponse)
  | snapshot (snapshot : SnapshotEnvelope)
  | metrics (metrics : TableActorMetrics)
  deriving DecidableEq, Repr

abbrev TableActorResult := Except TableActorError TableActorAnswer

/-! ## The worker -/

structure TableWorker where
  authority : ProtocolAuthority
  metrics : TableActorMetrics
  deriving DecidableEq, Repr

def TableActorMetrics.count (m : TableActorMetrics) (acknowledgement : AcknowledgementEnvelope) : TableActorMetrics :=
  let m := { m with processedCommands := m.processedCommands + 1 }
  match acknowledgement.delivery, acknowledgement.result with
  | .replayed, _ => { m with replayedCommands := m.replayedCommands + 1 }
  | .processed, .accepted => { m with acceptedCommands := m.acceptedCommands + 1 }
  | .processed, .rejected => { m with rejectedCommands := m.rejectedCommands + 1 }

namespace TableWorker

variable (w : TableWorker)

def new (authority : ProtocolAuthority) : TableWorker := ⟨authority, .default⟩

/-- A request taken out of the mailbox; `none` breaks the loop. -/
def runActor : TableActorRequest → Option (TableActorResult × TableWorker)
  | .advanceShowdown =>
    let (event, authority) := w.authority.advanceShowdown
    some (.ok (.event event), { w with authority := authority })
  | .submit command audience serverGenerated =>
    match w.authority.snapshot audience with
    | .error error => some (.error (.projection error), w)
    | .ok _ =>
      let (receipt, authority) :=
        if serverGenerated then w.authority.submitServerWithAcknowledgement command
        else w.authority.submitWithAcknowledgement command
      let response : TableActorResult :=
        match authority.snapshot audience with
        | .ok snapshot => .ok (.response ⟨receipt, snapshot⟩)
        | .error error => .error (.projection error)
      some (response, ⟨authority, w.metrics.count receipt.acknowledgement⟩)
  | .decodeRejected error =>
    some (.error (.decode error), { w with metrics := { w.metrics with decodeRejections := w.metrics.decodeRejections + 1 } })
  | .snapshot audience =>
    let answer : TableActorResult :=
      match w.authority.snapshot audience with
      | .ok snapshot => .ok (.snapshot snapshot)
      | .error error => .error (.projection error)
    some (answer, { w with metrics := { w.metrics with snapshotRequests := w.metrics.snapshotRequests + 1 } })
  | .metrics => some (.ok (.metrics w.metrics), w)
  | .shutdown => none

end TableWorker

/-! ## The handle -/

namespace TableActorHandle

def advanceShowdown : TableActorRequest := .advanceShowdown

def submit (command : CommandEnvelope) (audience : ProjectionAudience) : TableActorRequest := .submit command audience false

def submitServer (command : CommandEnvelope) (audience : ProjectionAudience) : TableActorRequest :=
  .submit command audience true

def submitJson (fromSlice : List UInt8 → Option CommandEnvelope) (bytes : List UInt8) (audience : ProjectionAudience) :
    TableActorRequest :=
  match decodeCommandJson fromSlice bytes with
  | .ok command => submit command audience
  | .error error => .decodeRejected error

def snapshot (audience : ProjectionAudience) : TableActorRequest := .snapshot audience

def metrics : TableActorRequest := .metrics

def received : Reply TableActorResult → TableActorResult
  | .answered result => result
  | .dropped => .error .responseChannelClosed
  | .turnedAway => .error .mailboxClosed

end TableActorHandle

/-! ## The table without its mailbox -/

namespace TableActorRequest

/-- What a request asks of the authority of a hand that seats what `hand` does. -/
def op (hand : MultiwayHand) : TableActorRequest → Option AuthorityOp
  | advanceShowdown => some .advanceShowdown
  | submit command audience serverGenerated =>
    if (hand.unseated audience).isNone then some (.submit command serverGenerated) else none
  | decodeRejected _ | snapshot _ | metrics | shutdown => none

def isDecodeRejected : TableActorRequest → Bool
  | decodeRejected _ => true
  | advanceShowdown | submit _ _ _ | snapshot _ | metrics | shutdown => false

def isSnapshot : TableActorRequest → Bool
  | snapshot _ => true
  | advanceShowdown | submit _ _ _ | decodeRejected _ | metrics | shutdown => false

end TableActorRequest

def TableActorAnswer.receipt : TableActorAnswer → Option SubmissionReceipt
  | response r => some r.receipt
  | event _ | snapshot _ | metrics _ => none

/-- A showdown advance that moved the hand. -/
def TableActorAnswer.published : TableActorAnswer → Bool
  | event e => e.isSome
  | response _ | snapshot _ | metrics _ => false

/-- The answers given so far, each with its request. -/
abbrev TableActorLog := List (TableActorRequest × TableActorResult)

namespace TableActorLog

/-- The calls that came to the authority. -/
def ops (hand : MultiwayHand) (log : TableActorLog) : List AuthorityOp := log.filterMap fun call => call.1.op hand

def receipts (log : TableActorLog) : List SubmissionReceipt := log.filterMap fun call => call.2.toOption.bind (·.receipt)

def published (log : TableActorLog) : Nat := log.countP fun call => call.2.toOption.any (·.published)

section snoc
variable (hand : MultiwayHand) (log : TableActorLog) (request : TableActorRequest) (answer : TableActorResult)

@[simp] theorem ops_snoc : ops hand (log ++ [(request, answer)]) = log.ops hand ++ (request.op hand).toList := by
  cases h : request.op hand <;> simp [ops, h]

@[simp] theorem receipts_snoc : receipts (log ++ [(request, answer)]) =
    log.receipts ++ (answer.toOption.bind (·.receipt)).toList := by
  cases h : answer.toOption.bind (·.receipt) <;> simp [receipts, h]

@[simp] theorem published_snoc : published (log ++ [(request, answer)]) =
    log.published + (answer.toOption.any (·.published)).toNat := by
  cases h : answer.toOption.any (·.published) <;> simp [published, h]

end snoc

end TableActorLog

/-- The metrics a list of answers adds up to. -/
def TableActorMetrics.tally (log : TableActorLog) : TableActorMetrics where
  processedCommands := log.receipts.length
  acceptedCommands := log.receipts.countP (·.acceptedNew)
  rejectedCommands := log.receipts.countP fun r => r.acknowledgement.delivery = .processed && r.acknowledgement.result = .rejected
  replayedCommands := log.receipts.countP fun r => r.acknowledgement.delivery = .replayed
  decodeRejections := log.countP fun call => call.1.isDecodeRejected
  snapshotRequests := log.countP fun call => call.1.isSnapshot

/-- The worker that has given these answers and no others. -/
def TableWorker.after (authority : ProtocolAuthority) (log : TableActorLog) : TableWorker :=
  ⟨authority.run (log.ops authority.hand), .tally log⟩

namespace ProtocolAuthority

section runs
variable {a : ProtocolAuthority} {c : HandConfig} {posted : Nat}

theorem run_snoc (a : ProtocolAuthority) (ops : List AuthorityOp) (op : AuthorityOp) :
    a.run (ops ++ [op]) = op.apply (a.run ops) := by
  simp [run]

theorem turns_snoc (a : ProtocolAuthority) (ops : List AuthorityOp) (op : AuthorityOp) :
    a.turns (ops ++ [op]) = a.turns ops ++ [(a.run ops, op)] := by
  induction ops generalizing a with
  | nil => rfl
  | cons first ops ih =>
    rw [List.cons_append, turns, turns, ih]
    rfl

theorem run_stage (hs : Stage c posted a.hand) (ops : List AuthorityOp) : Stage c posted (a.run ops).hand := by
  induction ops generalizing a with
  | nil => exact hs
  | cons op ops ih => exact ih (apply_stage hs op)

/-- Who has a view does not change in the course of a hand. -/
theorem unseated_run (hs : Stage c posted a.hand) (ops : List AuthorityOp) (audience : ProjectionAudience) :
    (a.run ops).hand.unseated audience = a.hand.unseated audience := by
  cases audience with
  | spectator => rfl
  | player p =>
    have hsame : p ∈ (a.run ops).hand.occupiedSeats ↔ p ∈ a.hand.occupiedSeats :=
      ((run_stage hs ops).seated.1 p).trans (hs.seated.1 p).symm
    have hany : ((a.run ops).hand.occupiedSeats.any (· == p)) = (a.hand.occupiedSeats.any (· == p)) := by
      rw [Bool.eq_iff_iff]
      simpa using hsame
    rw [MultiwayHand.unseated, MultiwayHand.unseated, hany]

/-- The seats of an audience with a view are dealt in. -/
theorem seated_of_unseated {audience : ProjectionAudience} (h : a.hand.unseated audience = none) :
    ∀ p, audience = .player p → p ∈ a.hand.occupiedSeats := by
  rintro p rfl
  rw [MultiwayHand.unseated] at h
  split at h
  · rename_i hany
    simpa using hany
  · cases h

theorem snapshot_unseated {audience : ProjectionAudience} {seat : SeatId} (h : a.hand.unseated audience = some seat) :
    a.snapshot audience = .error (.playerSeatNotOccupied seat) := by
  unfold snapshot MultiwayHand.projectHand
  rw [h]
  rfl

end runs

end ProtocolAuthority

/-! ## One request -/

namespace TableActorMetrics

theorem tally_response (log : TableActorLog) (command : CommandEnvelope) (audience : ProjectionAudience) (server : Bool)
    (r : TableActorResponse) : tally (log ++ [(.submit command audience server, .ok (.response r))]) =
      (tally log).count r.receipt.acknowledgement := by
  cases hd : r.receipt.acknowledgement.delivery <;> cases hr : r.receipt.acknowledgement.result <;>
    simp [tally, count, TableActorLog.receipts, TableActorRequest.isDecodeRejected, TableActorRequest.isSnapshot,
      TableActorAnswer.receipt, SubmissionReceipt.acceptedNew, hd, hr, Except.toOption]

/-- An answer without a receipt counts no command. -/
theorem tally_other {request : TableActorRequest} {answer : TableActorResult} (log : TableActorLog)
    (h : answer.toOption.bind (·.receipt) = none) : tally (log ++ [(request, answer)]) =
      { tally log with
        decodeRejections := (tally log).decodeRejections + request.isDecodeRejected.toNat
        snapshotRequests := (tally log).snapshotRequests + request.isSnapshot.toNat } := by
  cases request <;> simp [tally, TableActorLog.receipts, TableActorRequest.isDecodeRejected, TableActorRequest.isSnapshot, h]

end TableActorMetrics

namespace TableWorker

section requests
variable {authority : ProtocolAuthority} {c : HandConfig} {posted : Nat} {w : TableWorker} {command : CommandEnvelope}
  {audience : ProjectionAudience} {server : Bool}

theorem runActor_advance (w : TableWorker) : w.runActor .advanceShowdown =
    some (.ok (.event w.authority.advanceShowdown.1), { w with authority := w.authority.advanceShowdown.2 }) := rfl

theorem runActor_unseated {seat : SeatId} (h : w.authority.hand.unseated audience = some seat) :
    w.runActor (.submit command audience server) = some (.error (.projection (.playerSeatNotOccupied seat)), w) := by
  rw [runActor, ProtocolAuthority.snapshot_unseated h]

/-- A submission whose audience is seated is put to the authority, and shown what it left. -/
theorem runActor_seated (hs : Stage c posted w.authority.hand) (h : w.authority.hand.unseated audience = none) :
    ∃ snapshot, (w.authority.submitFrom command server).2.snapshot audience = .ok snapshot ∧
      w.runActor (.submit command audience server) =
        some (.ok (.response ⟨(w.authority.submitFrom command server).1, snapshot⟩),
          ⟨(w.authority.submitFrom command server).2,
            w.metrics.count (w.authority.submitFrom command server).1.acknowledgement⟩) := by
  obtain ⟨view, hview, _⟩ := ProtocolAuthority.snapshot_ok (ProtocolAuthority.seated_of_unseated h)
  have hafter : (w.authority.run [.submit command server]).hand.unseated audience = none :=
    (ProtocolAuthority.unseated_run hs _ audience).trans h
  obtain ⟨view', hview', _⟩ := ProtocolAuthority.snapshot_ok (ProtocolAuthority.seated_of_unseated hafter)
  have hboth : (if server then w.authority.submitServerWithAcknowledgement command
      else w.authority.submitWithAcknowledgement command) = w.authority.submitFrom command server := by
    cases server <;> rfl
  change (w.authority.submitFrom command server).2.snapshot audience = _ at hview'
  refine ⟨_, hview', ?_⟩
  simp only [runActor, hview, hboth, hview']

/-- What a request leaves is what its answer adds to the log. -/
theorem runActor_after (hs : Stage c posted authority.hand) (log : TableActorLog) (request : TableActorRequest)
    (answer : TableActorResult) (h : (after authority log).runActor request = some (answer, w)) :
    w = after authority (log ++ [(request, answer)]) := by
  rw [after, TableActorLog.ops_snoc]
  cases request with
  | advanceShowdown =>
    rw [runActor_advance] at h
    obtain ⟨ha, hw⟩ := Prod.mk.inj (Option.some.inj h)
    rw [← hw, TableActorMetrics.tally_other log (by rw [← ha]; rfl)]
    simp [TableActorRequest.op, ProtocolAuthority.run_snoc, AuthorityOp.apply, after, TableActorRequest.isDecodeRejected,
      TableActorRequest.isSnapshot]
  | submit command audience server =>
    have hsame : (after authority log).authority.hand.unseated audience = authority.hand.unseated audience :=
      ProtocolAuthority.unseated_run hs _ audience
    cases hseat : authority.hand.unseated audience with
    | some seat =>
      rw [runActor_unseated (hsame.trans hseat)] at h
      obtain ⟨ha, hw⟩ := Prod.mk.inj (Option.some.inj h)
      rw [← hw, TableActorMetrics.tally_other log (by rw [← ha]; rfl)]
      simp [TableActorRequest.op, hseat, after, TableActorRequest.isDecodeRejected, TableActorRequest.isSnapshot]
    | none =>
      obtain ⟨snapshot, _, he⟩ := @runActor_seated c posted (after authority log) command audience server
        (ProtocolAuthority.run_stage hs _) (hsame.trans hseat)
      obtain ⟨ha, hw⟩ := Prod.mk.inj (Option.some.inj (he.symm.trans h))
      rw [← hw, ← ha, TableActorMetrics.tally_response]
      simp [TableActorRequest.op, hseat, ProtocolAuthority.run_snoc, AuthorityOp.apply, after]
  | decodeRejected error =>
    obtain ⟨ha, hw⟩ := Prod.mk.inj (Option.some.inj h)
    rw [← hw, TableActorMetrics.tally_other log (by rw [← ha]; rfl)]
    simp [TableActorRequest.op, after, TableActorRequest.isDecodeRejected, TableActorRequest.isSnapshot]
  | snapshot audience =>
    obtain ⟨ha, hw⟩ := Prod.mk.inj (Option.some.inj h)
    have hnone : answer.toOption.bind (·.receipt) = none := by
      rw [← ha]
      cases (after authority log).authority.snapshot audience <;> rfl
    rw [← hw, TableActorMetrics.tally_other log hnone]
    simp [TableActorRequest.op, after, TableActorRequest.isDecodeRejected, TableActorRequest.isSnapshot]
  | metrics =>
    obtain ⟨ha, hw⟩ := Prod.mk.inj (Option.some.inj h)
    rw [← hw, TableActorMetrics.tally_other log (by rw [← ha]; rfl)]
    simp [TableActorRequest.op, after, TableActorRequest.isDecodeRejected, TableActorRequest.isSnapshot]
  | shutdown => cases h

theorem serial_after (hs : Stage c posted authority.hand) {log : TableActorLog}
    (h : Serial runActor (new authority) log w) : w = after authority log := by
  induction h with
  | nil => rfl
  | snoc _ hserve ih =>
    rw [ih] at hserve
    exact runActor_after hs _ _ _ hserve

end requests

end TableWorker

/-! ## Receipts are the authority's -/

/-- The receipt of a call on the authority. -/
def AuthorityOp.receipt (op : AuthorityOp) (a : ProtocolAuthority) : Option SubmissionReceipt :=
  match op with
  | submit envelope server => some (a.submitFrom envelope server).1
  | advanceShowdown => none

section receipts
variable {authority : ProtocolAuthority} {c : HandConfig} {posted : Nat} {w : TableWorker} {log : TableActorLog}

theorem acceptedNew_id {a : ProtocolAuthority} {envelope : CommandEnvelope} {server : Bool}
    (h : (a.submitFrom envelope server).1.acceptedNew = true) :
    (a.submitFrom envelope server).1.outcome.commandId = some envelope.commandId := by
  have hanswers := a.submitFrom_answers envelope server
  generalize a.submitFrom envelope server = s at hanswers h
  cases hanswers with
  | unchanged _ hold => rw [hold] at h; cases h
  | refused _ _ _ hold => rw [hold] at h; cases h
  | accepted _ _ _ => rfl

/-- An answer carries the receipt, or the event, of its call on the authority. -/
theorem runActor_answer (hs : Stage c posted authority.hand) (request : TableActorRequest) (answer : TableActorResult)
    (h : (TableWorker.after authority log).runActor request = some (answer, w)) :
    answer.toOption.bind (·.receipt) =
        (request.op authority.hand).bind (·.receipt (authority.run (log.ops authority.hand))) ∧
      answer.toOption.any (·.published) =
        (request.op authority.hand).any (·.advanced (authority.run (log.ops authority.hand))) := by
  cases request with
  | advanceShowdown =>
    rw [TableWorker.runActor_advance] at h
    obtain ⟨ha, _⟩ := Prod.mk.inj (Option.some.inj h)
    rw [← ha]
    exact ⟨rfl, rfl⟩
  | submit command audience server =>
    have hsame : (TableWorker.after authority log).authority.hand.unseated audience = authority.hand.unseated audience :=
      ProtocolAuthority.unseated_run hs _ audience
    cases hseat : authority.hand.unseated audience with
    | some seat =>
      rw [TableWorker.runActor_unseated (hsame.trans hseat)] at h
      obtain ⟨ha, _⟩ := Prod.mk.inj (Option.some.inj h)
      rw [← ha]
      simp [TableActorRequest.op, hseat, Except.toOption]
    | none =>
      obtain ⟨snapshot, _, he⟩ := @TableWorker.runActor_seated c posted (.after authority log) command audience server
        (ProtocolAuthority.run_stage hs _) (hsame.trans hseat)
      obtain ⟨ha, _⟩ := Prod.mk.inj (Option.some.inj (he.symm.trans h))
      rw [← ha]
      simp [TableActorRequest.op, hseat, Except.toOption, TableActorAnswer.receipt, TableActorAnswer.published,
        AuthorityOp.receipt, AuthorityOp.advanced, TableWorker.after]
  | snapshot audience =>
    obtain ⟨ha, _⟩ := Prod.mk.inj (Option.some.inj h)
    rw [← ha]
    cases (TableWorker.after authority log).authority.snapshot audience <;> exact ⟨rfl, rfl⟩
  | decodeRejected error =>
    obtain ⟨ha, _⟩ := Prod.mk.inj (Option.some.inj h)
    rw [← ha]
    exact ⟨rfl, rfl⟩
  | metrics =>
    obtain ⟨ha, _⟩ := Prod.mk.inj (Option.some.inj h)
    rw [← ha]
    exact ⟨rfl, rfl⟩
  | shutdown => cases h

/-- The receipts given out, and the events published, are those of the calls on the authority. -/
theorem serial_receipts (hs : Stage c posted authority.hand) (h : Serial TableWorker.runActor (.new authority) log w) :
    log.receipts = (authority.turns (log.ops authority.hand)).filterMap (fun turn => turn.2.receipt turn.1) ∧
      log.published = (authority.turns (log.ops authority.hand)).countP fun turn => turn.2.advanced turn.1 := by
  induction h with
  | nil => exact ⟨rfl, rfl⟩
  | @snoc t u log request answer hserial hserve ih =>
    rw [TableWorker.serial_after hs hserial] at hserve
    obtain ⟨hreceipt, hadvanced⟩ := runActor_answer hs request answer hserve
    rw [TableActorLog.receipts_snoc, TableActorLog.published_snoc, TableActorLog.ops_snoc, ih.1, ih.2, hreceipt, hadvanced]
    cases hop : request.op authority.hand with
    | none => simp
    | some op =>
      rw [Option.toList_some, ProtocolAuthority.turns_snoc, List.filterMap_append, List.countP_append]
      constructor
      · cases hr : op.receipt (authority.run (TableActorLog.ops authority.hand log)) <;> simp [hr]
      · cases hr : op.advanced (authority.run (TableActorLog.ops authority.hand log)) <;> simp [hr]

/-- As many receipts say accepted as the authority accepted commands. -/
theorem serial_accepted (hs : Stage c posted authority.hand) (h : Serial TableWorker.runActor (.new authority) log w) :
    log.receipts.countP (·.acceptedNew) =
      (authority.turns (log.ops authority.hand)).countP fun turn => turn.2.accepted turn.1 := by
  rw [(serial_receipts hs h).1, List.countP_filterMap]
  refine List.countP_congr fun turn _ => ?_
  cases turn.2 <;> simp [AuthorityOp.receipt, AuthorityOp.accepted, SubmissionReceipt.acceptedNew, and_comm]

/-- No id is accepted twice. -/
theorem serial_once (hs : Stage c posted authority.hand) (h : Serial TableWorker.runActor (.new authority) log w) (id : String) :
    log.receipts.countP (fun r => r.acceptedNew && r.outcome.commandId == some id) ≤ 1 := by
  have honce : (authority.events (log.ops authority.hand)).count (.applied id) ≤ 1 :=
    (authority.run_steps (log.ops authority.hand)).applied_once id
  refine le_trans ?_ honce
  rw [(serial_receipts hs h).1, List.countP_filterMap, ProtocolAuthority.events, List.count, List.countP_map]
  refine List.countP_mono_left fun turn _ hturn => ?_
  cases hop : turn.2 with
  | advanceShowdown => simp [hop, AuthorityOp.receipt] at hturn
  | submit envelope server =>
    simp only [hop, AuthorityOp.receipt, Option.map_some, Option.getD_some, Bool.and_eq_true, beq_iff_eq] at hturn
    have hid : envelope.commandId = id := Option.some.inj ((acceptedNew_id hturn.1).symm.trans hturn.2)
    have haccepted : (AuthorityOp.submit envelope server).accepted turn.1 = true := by
      simpa [AuthorityOp.accepted, SubmissionReceipt.acceptedNew, and_comm] using hturn.1
    simp [hop, AuthorityOp.event, haccepted, hid]

end receipts

/-! ## Every interleaving -/

/-- The served calls of a trace, without their tickets. -/
def servedLog (events : List (Mailbox.Event TableActorRequest TableActorResult)) : TableActorLog :=
  (servedCalls events).map fun call => (call.1.request, call.2)

abbrev TableActorRun (authority : ProtocolAuthority) :=
  Run TableWorker.runActor tableMailboxCapacity (TableWorker.new authority)

/-- What the callers of a table see. -/
structure Linearized (authority : ProtocolAuthority) (events : List (Mailbox.Event TableActorRequest TableActorResult))
    (a : Mailbox.Actor TableWorker TableActorRequest TableActorResult) : Prop where
  /-- Calls are taken in the order they were put in. -/
  order : ∃ waiting, sentCalls events = (servedCalls events).map Prod.fst ++ stoppedCalls events ++ waiting
  bounded : a.mailbox.length ≤ tableMailboxCapacity
  /-- The table is where the served calls alone would leave it. -/
  state : a.worker = .after authority (servedLog events)
  /-- Each call is answered out of the table the calls served before it left. -/
  answers : ∀ (before rest : TableActorLog) request answer, servedLog events = before ++ (request, answer) :: rest →
    ∃ w, (TableWorker.after authority before).runActor request = some (answer, w)
  /-- A submission is shown the table as it left it: no other call comes between. -/
  views : ∀ (before rest : TableActorLog) (command : CommandEnvelope) (audience : ProjectionAudience) (server : Bool)
    (response : TableActorResponse), servedLog events =
      before ++ (.submit command audience server, .ok (.response response)) :: rest →
      let left := ((authority.run (before.ops authority.hand)).submitFrom command server).2
      left.snapshot audience = .ok response.snapshot ∧
        response.receipt = ((authority.run (before.ops authority.hand)).submitFrom command server).1
  /-- A caller has the answer of its own call, once. -/
  replies : ∀ ticket answer, (ticket, Reply.answered answer) ∈ a.replies ↔
    ∃ call, (call, answer) ∈ servedCalls events ∧ call.ticket = ticket
  once : (a.replies.map Prod.fst).Nodup
  /-- A caller that is told of a closed channel has asked for nothing that was done. -/
  closed : ∀ ticket reply, (ticket, reply) ∈ a.replies →
    (TableActorHandle.received reply = .error .mailboxClosed ∨
        TableActorHandle.received reply = .error .responseChannelClosed) →
      ∀ call answer, (call, answer) ∈ servedCalls events → call.ticket ≠ ticket
  /-- With no more calls made, every caller has a reply. -/
  drains : ∃ more b, TableActorRun authority (events ++ more) b ∧ sentCalls more = [] ∧
    ∀ ticket < a.nextTicket, ticket ∈ b.replies.map Prod.fst ∨
      ∃ call ∈ stoppedCalls (events ++ more), call.ticket = ticket

/-- What the metrics say. -/
structure Counted (authority : ProtocolAuthority) (events : List (Mailbox.Event TableActorRequest TableActorResult))
    (a : Mailbox.Actor TableWorker TableActorRequest TableActorResult) : Prop where
  tally : a.worker.metrics = .tally (servedLog events)
  reported : ∀ (before rest : TableActorLog) answer, servedLog events = before ++ (.metrics, answer) :: rest →
    answer = .ok (.metrics (.tally before))
  processed : a.worker.metrics.processedCommands =
    a.worker.metrics.acceptedCommands + a.worker.metrics.rejectedCommands + a.worker.metrics.replayedCommands
  /-- The revision moves with what was accepted and what the showdown published, and nothing else. -/
  revision : a.worker.authority.revision =
    authority.revision + (a.worker.metrics.acceptedCommands + (servedLog events).published)
  /-- Of all the callers that submit one id, one is told that it is accepted. -/
  once : ∀ id, (servedLog events).receipts.countP (fun r => r.acceptedNew && r.outcome.commandId == some id) ≤ 1

theorem TableActorLog.receipts_split (log : TableActorLog) :
    log.receipts.length = log.receipts.countP (·.acceptedNew) +
      log.receipts.countP (fun r => r.acknowledgement.delivery = .processed && r.acknowledgement.result = .rejected) +
        log.receipts.countP fun r => r.acknowledgement.delivery = .replayed := by
  induction log.receipts with
  | nil => rfl
  | cons r receipts ih =>
    rw [List.length_cons, ih, List.countP_cons, List.countP_cons, List.countP_cons]
    cases hd : r.acknowledgement.delivery <;> cases hr : r.acknowledgement.result <;>
      simp [SubmissionReceipt.acceptedNew, hd, hr] <;> omega

section interleavings
variable {c : HandConfig} {hand : MultiwayHand} {events : List (Mailbox.Event TableActorRequest TableActorResult)}
  {a : Mailbox.Actor TableWorker TableActorRequest TableActorResult}

/-- A seated submission's response, out of the worker's answer. -/
theorem runActor_response {authority : ProtocolAuthority} {posted : Nat} (hs : Stage c posted authority.hand)
    {log : TableActorLog} {command : CommandEnvelope} {audience : ProjectionAudience} {server : Bool}
    {response : TableActorResponse} {w : TableWorker}
    (h : (TableWorker.after authority log).runActor (.submit command audience server) = some (.ok (.response response), w)) :
    ((authority.run (log.ops authority.hand)).submitFrom command server).2.snapshot audience = .ok response.snapshot ∧
      response.receipt = ((authority.run (log.ops authority.hand)).submitFrom command server).1 := by
  have hsame : (TableWorker.after authority log).authority.hand.unseated audience = authority.hand.unseated audience :=
    ProtocolAuthority.unseated_run hs _ audience
  cases hseat : authority.hand.unseated audience with
  | some seat =>
    rw [TableWorker.runActor_unseated (hsame.trans hseat)] at h
    cases h
  | none =>
    obtain ⟨snapshot, hview, he⟩ := @TableWorker.runActor_seated c posted (.after authority log) command audience server
      (ProtocolAuthority.run_stage hs _) (hsame.trans hseat)
    obtain ⟨ha, _⟩ := Prod.mk.inj (Option.some.inj (he.symm.trans h))
    cases ha
    exact ⟨hview, rfl⟩

/-- The worker's own answers never speak of closed channels. -/
theorem runActor_open {w w' : TableWorker} {request : TableActorRequest} {answer : TableActorResult}
    (h : w.runActor request = some (answer, w')) :
    answer ≠ .error .mailboxClosed ∧ answer ≠ .error .responseChannelClosed := by
  have hsnapshot : ∀ (a : ProtocolAuthority) audience (f : SnapshotEnvelope → TableActorAnswer) (answer : TableActorResult),
      (match a.snapshot audience with
        | .ok snapshot => (.ok (f snapshot) : TableActorResult)
        | .error error => .error (.projection error)) = answer →
      answer ≠ .error .mailboxClosed ∧ answer ≠ .error .responseChannelClosed := by
    intro a audience f answer he
    rw [← he]
    cases a.snapshot audience <;> simp
  cases request with
  | advanceShowdown =>
    rw [TableWorker.runActor_advance] at h
    rw [← (Prod.mk.inj (Option.some.inj h)).1]
    simp
  | submit command audience server =>
    rw [TableWorker.runActor] at h
    split at h
    · rw [← (Prod.mk.inj (Option.some.inj h)).1]
      simp
    · exact hsnapshot _ audience (fun snapshot => .response ⟨_, snapshot⟩) answer (Prod.mk.inj (Option.some.inj h)).1
  | decodeRejected error => rw [← (Prod.mk.inj (Option.some.inj h)).1]; simp
  | snapshot audience => exact hsnapshot _ audience .snapshot answer (Prod.mk.inj (Option.some.inj h)).1
  | metrics => rw [← (Prod.mk.inj (Option.some.inj h)).1]; simp
  | shutdown => cases h

/-- One channel, one reply. -/
theorem reply_unique {α : Type} {replies : List (Nat × α)} (h : (replies.map Prod.fst).Nodup) {ticket : Nat} {x y : α}
    (hx : (ticket, x) ∈ replies) (hy : (ticket, y) ∈ replies) : x = y :=
  congrArg Prod.snd (List.inj_on_of_nodup_map h hx hy rfl)

/-- Callers of a table, in any interleaving, see one table that serves one call at a time,
    in the order in which the calls got into its mailbox. -/
theorem actor_linearizes (hstarts : MultiwayHand.HandStarts c hand) (tableId : TableId) (handId : HandId)
    (hr : TableActorRun (.new tableId handId hand) events a) : Linearized (.new tableId handId hand) events a := by
  have hs := hstarts.stage
  have hserial : Serial TableWorker.runActor (.new (.new tableId handId hand)) (servedLog events) a.worker := hr.serial
  obtain ⟨waiting, horder, _⟩ := hr.order
  have hanswers : ∀ (before rest : TableActorLog) request answer, servedLog events = before ++ (request, answer) :: rest →
      ∃ w, (TableWorker.after (.new tableId handId hand) before).runActor request = some (answer, w) := by
    intro before rest request answer he
    rw [he] at hserial
    obtain ⟨u, w, hbefore, hserve⟩ := hserial.at_call
    exact ⟨w, TableWorker.serial_after hs hbefore ▸ hserve⟩
  refine ⟨⟨waiting, horder⟩, hr.bounded, TableWorker.serial_after hs hserial, hanswers, ?_, hr.answered, hr.replied_once,
    ?_, ?_⟩
  · intro before rest command audience server response he
    obtain ⟨w, hw⟩ := hanswers before rest _ _ he
    exact runActor_response hs hw
  · intro ticket reply hreply hclosed call answer hserved hticket
    have hsame := reply_unique hr.replied_once hreply ((hr.answered ticket answer).mpr ⟨call, hserved, hticket⟩)
    rw [hsame] at hclosed
    obtain ⟨before, rest, he⟩ := List.append_of_mem
      (List.mem_map_of_mem (f := fun c : Mailbox.Call TableActorRequest × TableActorResult => (c.1.request, c.2)) hserved)
    obtain ⟨w, hw⟩ := hanswers before rest call.request answer he
    exact hclosed.elim (runActor_open hw).1 (runActor_open hw).2
  · obtain ⟨more, b, hrun, hnone, htickets, hempty⟩ := hr.drains
    refine ⟨more, b, hrun, hnone, fun ticket ht => ?_⟩
    have hreplied := hrun.replied (htickets ▸ ht)
    rwa [Mailbox.Actor.tickets, hempty, List.map_nil, List.append_nil] at hreplied

/-- The player to act raises. -/
def raiseToTen : CommandEnvelope := ⟨protocolVersion, "raise", ⟨7⟩, ⟨1⟩, 0, .act 0 (.raise 10)⟩

/-- Two calls are put in together, a third once they are served, and a fourth comes after the one that stops the worker. -/
theorem late_caller_run {σ ρ α : Type} {serve : σ → ρ → Option (α × σ)} {w₀ w₁ w₂ w₃ : σ}
    {first second third last late : ρ} {x y z : α}
    (hfirst : serve w₀ first = some (x, w₁)) (hsecond : serve w₁ second = some (y, w₂)) (hthird : serve w₂ third = some (z, w₃))
    (hlast : serve w₃ last = none) : ∃ events a, Run serve tableMailboxCapacity w₀ events a ∧
      (servedCalls events).map (fun call => (call.1.request, call.2)) = [(first, x), (second, y), (third, z)] := by
  have h0 : Run serve tableMailboxCapacity w₀ [] _ := .start
  have h1 := h0.step (.send _ first (by simp [Mailbox.Actor.start]) (by simp [Mailbox.Actor.start, tableMailboxCapacity]))
  have h2 := h1.step (.send _ second (by simp [Mailbox.Actor.start]) (by simp [Mailbox.Actor.start, tableMailboxCapacity]))
  have h3 := h2.step (.serve _ ⟨0, first⟩ [⟨1, second⟩] x w₁ rfl rfl hfirst)
  have h4 := h3.step (.serve _ ⟨1, second⟩ [] y w₂ rfl rfl hsecond)
  have h5 := h4.step (.send _ third (by simp [Mailbox.Actor.start]) (by simp [tableMailboxCapacity]))
  have h6 := h5.step (.serve _ ⟨2, third⟩ [] z w₃ rfl rfl hthird)
  have h7 := h6.step (.send _ last (by simp [Mailbox.Actor.start]) (by simp [tableMailboxCapacity]))
  have h8 := h7.step (.stop _ ⟨3, last⟩ [] rfl rfl hlast)
  have h9 := h8.step (.send _ late (by simp) (by simp [tableMailboxCapacity]))
  exact ⟨_, _, h9, rfl⟩

/-- A seat's command is put in twice before the counters are asked for. -/
theorem submitted_twice {authority : ProtocolAuthority} {posted : Nat} (hs : Stage c posted authority.hand)
    (command : CommandEnvelope) {seat : SeatId} (hseat : authority.hand.unseated (.player seat) = none) :
    ∃ events a, TableActorRun authority events a ∧ (servedLog events).receipts =
      [(authority.submitFrom command false).1, ((authority.submitFrom command false).2.submitFrom command false).1] := by
  have hs' : Stage c posted (authority.submitFrom command false).2.hand := ProtocolAuthority.run_stage hs [.submit command false]
  have hseat' : (authority.submitFrom command false).2.hand.unseated (.player seat) = none :=
    (ProtocolAuthority.unseated_run hs [.submit command false] _).trans hseat
  obtain ⟨_, _, hfirst⟩ := @TableWorker.runActor_seated c posted (.new authority) command _ false hs hseat
  obtain ⟨_, _, hagain⟩ := @TableWorker.runActor_seated c posted ⟨(authority.submitFrom command false).2,
    TableActorMetrics.default.count (authority.submitFrom command false).1.acknowledgement⟩ command _ false hs' hseat'
  obtain ⟨events, a, hr, hserved⟩ := @late_caller_run _ _ _ _ _ _ _ _ _ _ .metrics .shutdown (.snapshot .spectator) _ _ _
    hfirst hagain rfl rfl
  exact ⟨events, a, hr, by rw [servedLog, hserved]; rfl⟩

/-- The raise is accepted once and replayed once. -/
theorem raised_twice : ∃ hand events a, MultiwayHand.HandStarts threeHanded hand ∧
    TableActorRun (.new ⟨7⟩ ⟨1⟩ hand) events a ∧
      (servedLog events).receipts.map (fun receipt => (receipt.acknowledgement.result, receipt.acknowledgement.delivery)) =
        [(.accepted, .processed), (.accepted, .replayed)] := by
  have hsubmits : (threeHanded.build.toOption.map fun h =>
      let authority := ProtocolAuthority.new ⟨7⟩ ⟨1⟩ { h with pacedShowdown := false }
      let first := authority.submitFrom raiseToTen false
      (authority.hand.unseated (.player 0), [first.1, (first.2.submitFrom raiseToTen false).1].map fun receipt =>
        (receipt.acknowledgement.result, receipt.acknowledgement.delivery))) =
      some (none, [(.accepted, .processed), (.accepted, .replayed)]) := by decide +kernel
  cases hbuild : threeHanded.build with
  | error error => rw [hbuild] at hsubmits; cases hsubmits
  | ok start =>
    rw [hbuild] at hsubmits
    obtain ⟨hseat, hreceipts⟩ := Prod.mk.inj (Option.some.inj hsubmits)
    have hstarts : MultiwayHand.HandStarts threeHanded { start with pacedShowdown := false } :=
      ⟨⟨.refl _, rfl⟩, start, false, hbuild, rfl⟩
    obtain ⟨events, a, hr, hserved⟩ := @submitted_twice _ (.new ⟨7⟩ ⟨1⟩ { start with pacedShowdown := false }) _
      hstarts.stage raiseToTen 0 hseat
    exact ⟨_, events, a, hstarts, hr, by rw [hserved]; exact hreceipts⟩

theorem actor_linearizes_three : ∃ hand events a, MultiwayHand.HandStarts threeHanded hand ∧
    TableActorRun (.new ⟨7⟩ ⟨1⟩ hand) events a ∧
      (servedLog events).receipts.map (fun receipt => (receipt.acknowledgement.result, receipt.acknowledgement.delivery)) =
        [(.accepted, .processed), (.accepted, .replayed)] ∧ Linearized (.new ⟨7⟩ ⟨1⟩ hand) events a := by
  obtain ⟨hand, events, a, hstarts, hr, hserved⟩ := raised_twice
  exact ⟨hand, events, a, hstarts, hr, hserved, actor_linearizes hstarts ⟨7⟩ ⟨1⟩ hr⟩

theorem actor_counts (hstarts : MultiwayHand.HandStarts c hand) (tableId : TableId) (handId : HandId)
    (hr : TableActorRun (.new tableId handId hand) events a) : Counted (.new tableId handId hand) events a := by
  have hs := hstarts.stage
  have hserial : Serial TableWorker.runActor (.new (.new tableId handId hand)) (servedLog events) a.worker := hr.serial
  have hafter := TableWorker.serial_after hs hserial
  have hmetrics : a.worker.metrics = .tally (servedLog events) := congrArg TableWorker.metrics hafter
  refine ⟨hmetrics, ?_, ?_, ?_, serial_once hs hserial⟩
  · intro before rest answer he
    rw [he] at hserial
    obtain ⟨u, w, hbefore, hserve⟩ := hserial.at_call
    rw [TableWorker.serial_after hs hbefore] at hserve
    exact (Prod.mk.inj (Option.some.inj hserve)).1.symm
  · rw [hmetrics]
    exact TableActorLog.receipts_split _
  · have haccepted : a.worker.metrics.acceptedCommands = (servedLog events).receipts.countP (·.acceptedNew) :=
      congrArg TableActorMetrics.acceptedCommands hmetrics
    have hauthority : a.worker.authority = (ProtocolAuthority.new tableId handId hand).run ((servedLog events).ops hand) :=
      congrArg TableWorker.authority hafter
    rw [haccepted, serial_accepted hs hserial, (serial_receipts hs hserial).2, hauthority]
    exact ProtocolAuthority.revision_counts _ _

theorem actor_counts_three : ∃ hand events a, MultiwayHand.HandStarts threeHanded hand ∧
    TableActorRun (.new ⟨7⟩ ⟨1⟩ hand) events a ∧
      (servedLog events).receipts.map (fun receipt => (receipt.acknowledgement.result, receipt.acknowledgement.delivery)) =
        [(.accepted, .processed), (.accepted, .replayed)] ∧ Counted (.new ⟨7⟩ ⟨1⟩ hand) events a := by
  obtain ⟨hand, events, a, hstarts, hr, hserved⟩ := raised_twice
  exact ⟨hand, events, a, hstarts, hr, hserved, actor_counts hstarts ⟨7⟩ ⟨1⟩ hr⟩

end interleavings

end OpenFelt
