/-
  OpenFelt.Protocol.Deadlines — a seat's clock, and what can keep it from running out.

  Proved, of every runtime reached by any requests: while a deadline is armed, a legal
  action of its seat is accepted, and the deadline plays for the seat when it is due, as
  long as the hand's command ledger has room; and the ledger is all it takes
  (`run_unwedged`). Rejected commands fill it too, so clients can: `ledger_filled`.
-/

import OpenFelt.Game.Safety
import OpenFelt.Protocol.Runtime

namespace OpenFelt

open MultiwayHand (Stage HandStarts)

/-! ## The action of a deadline -/

namespace MultiwayHand

/-- Whoever is to act can check or fold, and the deadline takes the one that is legal. -/
theorem Playing.timeout {h : MultiwayHand} {posted : Nat} {p : SeatId} (hp : h.Playing posted) (hto : h.toAct = some p) :
    ∃ legal action, h.legalActionsFor p = some legal ∧ RuntimeState.timeoutAction legal = some action ∧
      h.validateCommand ⟨p, action⟩ = .ok () := by
  have ht := hp.onTurn hto
  obtain ⟨legal, hlegal, hmenu⟩ := ht.menu hp.booked
  by_cases hcheck : legal.canCheck = true
  · refine ⟨legal, .check, hlegal, by simp [RuntimeState.timeoutAction, hcheck], ?_⟩
    rw [ht.validateCommand]
    simp [validateAction, hlegal, hcheck]
  · have hfold : legal.canFold = true := by
      rw [hmenu.canCheck] at hcheck
      rw [hmenu.canFold]
      omega
    refine ⟨legal, .fold, hlegal, by simp [RuntimeState.timeoutAction, hcheck, hfold], ?_⟩
    rw [ht.validateCommand]
    simp [validateAction, hlegal, hfold]

end MultiwayHand

/-! ## Its command's id -/

theorem timeoutCommandId_toList (handId : HandId) (g : Nat) : (timeoutCommandId handId g).toList =
    "srv-timeout-h".toList ++ handId.id.repr.toList ++ "-g".toList ++ g.repr.toList := by
  simp only [timeoutCommandId, String.toList_append, Nat.toString_eq_repr]

theorem timeoutCommandId_injective (handId : HandId) : Function.Injective (timeoutCommandId handId) := by
  intro g g' h
  have hlist := congrArg String.toList h
  rw [timeoutCommandId_toList, timeoutCommandId_toList, List.append_cancel_left_eq] at hlist
  exact Numerals.repr_injective (String.toList_injective hlist)

theorem timeoutCommandId_reserved (handId : HandId) (g : Nat) : reservedServerCommandId (timeoutCommandId handId g) = true := by
  rw [reservedServerCommandId, timeoutCommandId_toList, List.isPrefixOf_iff_prefix]
  refine ⟨"timeout-h".toList ++ handId.id.repr.toList ++ "-g".toList ++ g.repr.toList, ?_⟩
  rw [show "srv-timeout-h".toList = "srv-".toList ++ "timeout-h".toList by decide]
  simp only [List.append_assoc]

theorem timeoutCommandId_valid {handId : HandId} {g : Nat} (hhand : handId.id < 2 ^ 64) (hg : g < 2 ^ 64) :
    validCommandId (timeoutCommandId handId g) = true := by
  unfold timeoutCommandId
  refine numbered_valid ?_ ?_ (Nat.lt_trans hg (by decide))
  · have hdigits : handId.id.repr.toList.all idCharacter = true := by
      rw [List.all_eq_true]
      intro c hc
      simp [idCharacter, Char.isAlphanum, Numerals.isDigit_of_mem hc]
    rw [String.toList_append, String.toList_append, List.all_append, List.all_append, Nat.toString_eq_repr, hdigits]
    decide
  · have hid : handId.id.repr.utf8ByteSize ≤ 20 := Numerals.utf8ByteSize_repr_le (by decide) (Nat.lt_trans hhand (by decide))
    have hhead : "srv-timeout-h".utf8ByteSize = 13 := by decide
    have hmiddle : "-g".utf8ByteSize = 2 := by decide
    rw [String.utf8ByteSize_append, String.utf8ByteSize_append, Nat.toString_eq_repr]
    omega

namespace RuntimeState

open ProtocolAuthority AuthorizedTableError

/-- The command that a deadline submits for its seat. -/
def timeoutCommand (s : RuntimeState) (d : ActionDeadline) (action : Action) : CommandEnvelope :=
  .actForHand (timeoutCommandId s.handId d.generation) s.tableId s.handId s.table.revision d.seat action

/-- The runtime once that command is accepted, before anybody is told. -/
def timedOut (s : RuntimeState) (d : ActionDeadline) (action : Action) : RuntimeState :=
  { s with
    table := s.table.accepting (s.timeoutCommand d action)
    acceptedEvents := s.acceptedEvents ++ [s.table.eventOf (s.timeoutCommand d action)] }.rearmed

section deadlines
variable {c : HandConfig} {h : MultiwayHand} {posted : Nat} {s : RuntimeState} {d : ActionDeadline} {action : Action}
  {legal : MultiwayLegalActions}

/-! ## A deadline that runs out -/

theorem submitFrom_unrecorded {a : ProtocolAuthority} {envelope : CommandEnvelope} {server : Bool}
    (h : ¬ a.Recordable envelope server) :
    ∃ receipt, a.submitFrom envelope server = (receipt, a) ∧ receipt.acceptedNew = false := by
  have hanswers := a.submitFrom_answers envelope server
  generalize a.submitFrom envelope server = answer at hanswers ⊢
  cases hanswers with
  | unchanged receipt hold => exact ⟨receipt, rfl, hold⟩
  | refused _ _ hr _ => exact absurd hr h
  | accepted hr _ _ => exact absurd hr h

/-- The choice an armed deadline has for its seat. -/
theorem Serves.choice (hs : Serves c posted s) (hd : s.deadline = some d) : ∃ legal action,
    s.table.hand.legalActionsFor d.seat = some legal ∧ timeoutAction legal = some action ∧
      s.table.hand.validateCommand ⟨d.seat, action⟩ = .ok () := by
  have hto : s.table.hand.toAct = some d.seat := by rw [← hs.armed, hd]; rfl
  obtain ⟨_, hp⟩ := hs.stage.playing_of_toAct hto
  exact hp.timeout hto

/-- What the runtime submits when a deadline runs out. -/
theorem expireDeadline_submits (hs : Serves c posted s) (hd : s.deadline = some d)
    (hlegal : s.table.hand.legalActionsFor d.seat = some legal) (haction : timeoutAction legal = some action) :
    ∃ snapshot, s.expireDeadline d =
      let (receipt, table) := s.table.submitFrom (s.timeoutCommand d action) true
      let s := { s with table := table }
      match (⟨receipt, snapshot⟩ : TableActorResponse).receipt.acceptedNew, receipt.acceptedEvent with
      | true, some event =>
        match { s with acceptedEvents := s.acceptedEvents ++ [event] }.rescheduleDeadline with
        | (.error error, s) => (.error error, s)
        | (.ok (), s) =>
          match s.broadcast (.timeoutAction d.seat action) (some event) with
          | (.error error, s) => (.error error, s)
          | (.ok (), s) => (.ok (s.tickResult false (some event) (some action)), s)
      | _, _ => (.error authorityFailure, s) := by
  have hto : s.table.hand.toAct = some d.seat := by rw [← hs.armed, hd]; rfl
  have hseat : d.seat ∈ s.table.hand.occupiedSeats := by
    obtain ⟨hc, hp⟩ := hs.stage.playing_of_toAct hto
    exact (MultiwayHand.mem_occupiedSeats hp.booked.length).mpr (MultiwayHand.occupied_of_canAct (hp.onTurn hto).canAct)
  obtain ⟨view, hview, hproject⟩ := @view_ok s (.player d.seat) fun p hp => by cases hp; exact hseat
  have hmenu : view.legalActions = some legal := by
    rw [← hlegal]
    unfold MultiwayHand.projectHand at hproject
    split at hproject
    · cases hproject
    · rw [← Except.ok.inj hproject]
  obtain ⟨snapshot, hserve⟩ := @serve_ok s.table (s.timeoutCommand d action) true .spectator c posted hs.stage
    fun p hp => by cases hp
  refine ⟨snapshot, ?_⟩
  unfold expireDeadline
  rw [hview]
  dsimp only
  rw [hmenu]
  dsimp only
  rw [haction]
  dsimp only
  rw [timeoutCommand] at hserve
  rw [hserve]
  rfl

/-- A deadline that runs out plays for its seat if its command can be recorded; otherwise the
    runtime reports a failure and nothing has changed. -/
theorem expireDeadline_cases (hs : Serves c posted s) (hd : s.deadline = some d)
    (hlegal : s.table.hand.legalActionsFor d.seat = some legal) (haction : timeoutAction legal = some action)
    (hvalid : s.table.hand.validateCommand ⟨d.seat, action⟩ = .ok ()) :
    (¬ s.table.Recordable (s.timeoutCommand d action) true ∧ s.expireDeadline d = (.error authorityFailure, s)) ∨
    (s.table.Recordable (s.timeoutCommand d action) true ∧ Core s (s.timedOut d action) ∧
      ∃ s', Quiet (s.timedOut d action) s' ∧ s'.deadline = (s.timedOut d action).deadline ∧
        s.expireDeadline d =
          (.ok (s'.tickResult false (some (s.table.eventOf (s.timeoutCommand d action))) (some action)), s')) := by
  obtain ⟨snapshot, he⟩ := expireDeadline_submits hs hd hlegal haction
  rw [he]
  by_cases hr : s.table.Recordable (s.timeoutCommand d action) true
  · right
    have hok := applyPayload_valid hvalid
    have hexec := @execute_accepts _ (s.timeoutCommand d action) rfl hok
    have hcore : Core s (s.timedOut d action) := .timedOut d (s.timeoutCommand d action) action hr hok rfl hd rfl
    obtain ⟨s', hb, hq, hsame, _⟩ := @broadcast_quiet c posted _ (.timeoutAction d.seat action)
      (some (s.table.eventOf (s.timeoutCommand d action))) (hcore.serves hs)
    refine ⟨hr, hcore, s', hq, hsame, ?_⟩
    rw [hr.submitFrom, hexec]
    simp only [SubmissionReceipt.acceptedNew, SubmissionReceipt.acceptedEvent, receipt, CommandOutcome.result, decide_true,
      Bool.and_self, rescheduleDeadline_eq]
    rw [timedOut, accepting] at hb
    rw [hb]
  · left
    obtain ⟨receipt, hsub, hold⟩ := submitFrom_unrecorded hr
    refine ⟨hr, ?_⟩
    rw [hsub]
    simp only [hold]

theorem advanceTime_moves (hs : Serves c posted s) (nowTick : Nat) : Moves s (s.advanceTime nowTick).2 := by
  unfold advanceTime
  split
  · exact (Quiet.refl s).moves
  have hclock : Quiet s { s with nowTick := nowTick } := ⟨rfl, rfl, rfl, fun _ => rfl, rfl, rfl, rfl⟩
  have hserves := hclock.serves hs
  dsimp only
  split
  · exact hclock.moves
  rename_i d hd
  split
  · obtain ⟨legal, action, hlegal, haction, hvalid⟩ := hserves.choice hd
    rcases expireDeadline_cases hserves hd hlegal haction hvalid with ⟨_, he⟩ | ⟨_, hcore, s', hq, _, he⟩
    · rw [he]; exact hclock.moves
    · rw [he]; exact ⟨_, _, hclock, hcore, hq⟩
  split
  · have hwarned : Quiet s { s with nowTick := nowTick, deadline := some { d with warningEmitted := true } } := by
      refine ⟨rfl, rfl, rfl, fun _ => rfl, ?_, rfl, rfl⟩
      rw [show s.deadline = some d from hd]
      rfl
    obtain ⟨s', he, hq, _⟩ := @broadcast_quiet c posted _ (.deadlineWarning d.seat (d.dueTick - nowTick)) none
      (hwarned.serves hs)
    rw [he]
    exact (hwarned.trans hq).moves
  · exact hclock.moves

/-! ## Runs -/

theorem Serves.apply (hs : Serves c posted s) (op : RuntimeOp) : Moves s (op.apply s) := by
  cases op with
  | bind session tableId handId role => exact (bind_core s session tableId handId role).moves
  | submit session command => exact submit_moves hs session command
  | subscribe session =>
    refine Quiet.moves ?_
    simp only [RuntimeOp.apply, RuntimeState.subscribe]
    split
    · exact .refl s
    split
    · exact .refl s
    split
    · exact .refl s
    · exact ⟨rfl, rfl, rfl, fun _ => rfl, rfl, rfl, rfl⟩
  | receive session | hangUp session => exact Quiet.moves ⟨rfl, rfl, rfl, fun _ => rfl, rfl, rfl, rfl⟩
  | disconnect session => exact setConnected_moves hs session false _
  | reconnect session => exact setConnected_moves hs session true _
  | advanceTime nowTick => exact advanceTime_moves hs nowTick
  | progressShowdown now => exact (progressShowdown_moves hs now).2

theorem Serves.run (hs : Serves c posted s) (ops : List RuntimeOp) : Serves c posted (s.run ops) := by
  induction ops generalizing s with
  | nil => exact hs
  | cons op ops ih => exact ih ((hs.apply op).serves hs)

theorem Moves.handId {s' : RuntimeState} (hm : Moves s s') : s'.handId = s.handId := by
  obtain ⟨s₁, s₂, h1, h2, h3⟩ := hm
  have hcore : s₂.handId = s₁.handId := by
    have hrearmed : ∀ k : RuntimeState, k.rearmed.handId = k.handId := by
      intro k
      rcases rearmed_cases k with ⟨_, he⟩ | ⟨_, _, _, _, he⟩ <;> rw [he]
    cases h2 with
    | same | bound _ _ _ _ _ | refused _ _ _ _ _ | preferred _ _ _ _ _ _ => rfl
    | acted _ _ _ _ _ _ => exact hrearmed _
    | timedOut _ _ _ _ _ _ _ _ => exact hrearmed _
    | advanced _ _ _ => exact hrearmed _
  exact h3.handId.trans (hcore.trans h1.handId)

theorem run_handId (hs : Serves c posted s) (ops : List RuntimeOp) : (s.run ops).handId = s.handId := by
  induction ops generalizing s with
  | nil => rfl
  | cons op ops ih => exact (ih ((hs.apply op).serves hs)).trans (hs.apply op).handId

theorem spawn_table (table : ProtocolAuthority) : (spawn table).table = table := by
  unfold spawn
  dsimp only
  rw [rescheduleDeadline_eq]
  rcases rearmed_cases ⟨table, table.tableId, table.handId, .empty, .empty, 0, none, 0, 0, [], none⟩ with
    ⟨_, he⟩ | ⟨_, _, _, _, he⟩ <;> rw [he]

/-- A runtime given a hand that starts. -/
theorem spawn_serves {tableId : TableId} {handId : HandId} (hstarts : HandStarts c h) :
    Serves c h.currentWager (spawn (.new tableId handId h)) ∧ (spawn (.new tableId handId h)).handId = handId := by
  have hbase : ∀ d : Option ActionDeadline, ∀ g, d.map (·.seat) = h.toAct → (∀ x, d = some x → x.generation = g) → g ≤ 1 →
      Serves c h.currentWager ⟨.new tableId handId h, tableId, handId, .empty, .empty, 0, d, g, 0, [], none⟩ := by
    intro d g hto hgen hg
    exact ⟨hstarts.stage, rfl, rfl, (fun _ _ _ hf => by cases hf), (fun _ _ _ _ _ hf => by cases hf), hto, hgen, hg,
      Nat.zero_le _, fun _ he => by cases he⟩
  unfold spawn
  dsimp only
  rw [rescheduleDeadline_eq]
  unfold rearmed
  dsimp only
  cases hto : h.toAct with
  | none =>
    rw [show (ProtocolAuthority.new tableId handId h).hand.toAct = none from hto]
    exact ⟨hbase none 0 hto.symm (fun _ hx => by cases hx) (Nat.zero_le _), rfl⟩
  | some seat =>
    rw [show (ProtocolAuthority.new tableId handId h).hand.toAct = some seat from hto]
    exact ⟨hbase _ 1 hto.symm (fun _ hx => by cases hx; rfl) (Nat.le_refl _), rfl⟩

/-! ## Nobody wedges a hand while the ledger has room -/

/-- A client's command that the rules allow: an unused id, the current revision, a legal
    action of the seat. -/
structure Legal (s : RuntimeState) (seat : SeatId) (command : CommandEnvelope) (action : Action) : Prop where
  version : command.version = protocolVersion
  id : validCommandId command.commandId = true
  unreserved : reservedServerCommandId command.commandId = false
  unused : s.table.recorded command.commandId = none
  tableId : command.tableId = s.tableId
  handId : command.handId = s.handId
  revision : command.expectedRevision = s.table.revision
  payload : command.payload = .act seat action
  valid : s.table.hand.validateCommand ⟨seat, action⟩ = .ok ()

/-- What a deadline that runs out at `now` leaves: the seat has checked or folded, and the
    next seat's clock runs, or nobody's. -/
structure PlaysFor (s : RuntimeState) (d : ActionDeadline) (now : Nat) (action : Action) (tick : TickResult) (s' : RuntimeState) :
    Prop where
  takes : tick.timeoutAction = some action
  event : ∃ event, tick.timeoutEvent = some event ∧
    ∃ phase next pot, event.event = .actionAccepted d.seat action phase next pot
  hand : s'.table.hand = (s.table.hand.applyCommand ⟨d.seat, action⟩).2
  clock : (∃ d', s'.deadline = some d' ∧ s'.table.hand.toAct = some d'.seat ∧ d'.dueTick = now + actionTimeoutTicks) ∨
    (s'.deadline = none ∧ (s'.table.hand.phase.terminal = true ∨ s'.table.hand.showdownProgress.isSome = true))

/-- Nobody keeps the seat of deadline `d` from acting, nor its clock from acting for it. -/
structure Unwedged (s : RuntimeState) (d : ActionDeadline) : Prop where
  acts : ∀ session command action, s.sessions.find? session = some ⟨.player d.seat, true⟩ → s.Legal d.seat command action →
    ∃ response, (s.submit session command).1 = .ok response ∧
      response.receipt.acknowledgement.result = .accepted ∧ response.receipt.acknowledgement.delivery = .processed
  expires : ∀ now, s.nowTick ≤ now → d.dueTick ≤ now → ∃ legal tick s',
    s.table.hand.legalActionsFor d.seat = some legal ∧ s.advanceTime now = (.ok tick, s') ∧
      s.PlaysFor d now (if legal.canCheck then .check else .fold) tick s'

theorem Legal.accepted (hs : Serves c posted s) (hroom : s.table.recordedCommands.length < maxRecordedCommandsPerHand)
    {session : GuestSessionId} {command : CommandEnvelope}
    (hbound : s.sessions.find? session = some ⟨.player d.seat, true⟩) (hl : s.Legal d.seat command action) :
    ∃ response, (s.submit session command).1 = .ok response ∧
      response.receipt.acknowledgement.result = .accepted ∧ response.receipt.acknowledgement.delivery = .processed := by
  have hbinding : s.connectedBinding session = .ok ⟨.player d.seat, true⟩ := by
    unfold connectedBinding
    rw [hbound]
    rfl
  have hr : s.table.Recordable command false := by
    refine ⟨framingRefusal_none.mpr ⟨hl.version, hl.id, Or.inr hl.unreserved, ?_, ?_⟩, hl.unused, hroom⟩
    · rw [hs.tableId]; exact hl.tableId
    · rw [hs.handId]; exact hl.handId
  have hok : (s.table.applyPayload command.payload).1 = .ok () := by
    rw [hl.payload]
    exact applyPayload_valid hl.valid
  obtain ⟨response, s', he, hreceipt, _, _⟩ := submit_served hs hbinding hl.tableId hl.handId (by rw [hl.payload]; rfl)
  refine ⟨response, by rw [he], ?_⟩
  rw [hreceipt, hr.submitFrom, execute_accepts hl.revision hok]
  exact ⟨rfl, rfl⟩

/-- An armed deadline's id has not been used. -/
theorem Serves.timeout_recordable (hs : Serves c posted s) (hd : s.deadline = some d) (hhand : s.handId.id < 2 ^ 64)
    (hroom : s.table.recordedCommands.length < maxRecordedCommandsPerHand) (action : Action) :
    s.table.Recordable (s.timeoutCommand d action) true := by
  have hgen := hs.current d hd
  have hcounted := hs.counted
  refine ⟨framingRefusal_none.mpr ⟨rfl, timeoutCommandId_valid hhand ?_, Or.inl rfl, hs.tableId.symm, hs.handId.symm⟩, ?_, hroom⟩
  · simp only [maxRecordedCommandsPerHand] at hroom
    omega
  · refine List.lookup_eq_none_iff.mpr fun entry he => ?_
    rw [bne_iff_ne]
    intro hid
    have hname : timeoutCommandId s.handId d.generation = entry.1 := hid
    obtain ⟨g, _, hg, hlast⟩ := hs.reserved entry he (hname ▸ timeoutCommandId_reserved _ _)
    have hsame := timeoutCommandId_injective s.handId (hname.trans hg)
    rw [hlast (by rw [← hsame, hgen])] at hd
    cases hd

theorem advanceTime_due (hd : s.deadline = some d) {now : Nat} (hnow : s.nowTick ≤ now) (hdue : d.dueTick ≤ now) :
    s.advanceTime now = expireDeadline { s with nowTick := now } d := by
  unfold advanceTime
  rw [if_neg (Nat.not_lt.mpr hnow)]
  dsimp only
  rw [hd]
  dsimp only
  rw [if_pos hdue]

theorem timedOut_clock (hs : Serves c posted s) (hcore : Core s (s.timedOut d action)) :
    (∃ d', (s.timedOut d action).deadline = some d' ∧ (s.timedOut d action).table.hand.toAct = some d'.seat ∧
        d'.dueTick = s.nowTick + actionTimeoutTicks) ∨
      ((s.timedOut d action).deadline = none ∧ ((s.timedOut d action).table.hand.phase.terminal = true ∨
        (s.timedOut d action).table.hand.showdownProgress.isSome = true)) := by
  have hnext := hcore.serves hs
  rcases rearmed_cases { s with
      table := s.table.accepting (s.timeoutCommand d action)
      acceptedEvents := s.acceptedEvents ++ [s.table.eventOf (s.timeoutCommand d action)] }
        with ⟨hto, he⟩ | ⟨d', hto, _, hdue, he⟩
  · rw [timedOut, he] at hnext ⊢
    refine Or.inr ⟨rfl, ?_⟩
    have hstage := hnext.stage
    dsimp only at hto hstage ⊢
    generalize (s.table.accepting (s.timeoutCommand d action)).hand = k at hto hstage
    cases hstage with
    | playing _ hp =>
      obtain ⟨q, hq, _⟩ := hp.toAct
      rw [hto] at hq; cases hq
    | showing _ hsh _ => exact Or.inr (by rw [hsh.tabled.current]; rfl)
    | settled _ _ =>
      rcases (MultiwayHand.settle_over _).phase with hp | hp <;> exact Or.inl (by rw [hp]; rfl)
    | folded _ hu hone =>
      rcases (MultiwayHand.awardFold_over hu hone).phase with hp | hp <;> exact Or.inl (by rw [hp]; rfl)
  · rw [timedOut, he]
    exact Or.inl ⟨d', rfl, hto, hdue⟩

theorem Serves.expires (hs : Serves c posted s) (hd : s.deadline = some d) (hhand : s.handId.id < 2 ^ 64)
    (hroom : s.table.recordedCommands.length < maxRecordedCommandsPerHand) {now : Nat} (hnow : s.nowTick ≤ now)
    (hdue : d.dueTick ≤ now) : ∃ legal tick s', s.table.hand.legalActionsFor d.seat = some legal ∧
      s.advanceTime now = (.ok tick, s') ∧ s.PlaysFor d now (if legal.canCheck then .check else .fold) tick s' := by
  have hclock : Quiet s { s with nowTick := now } := ⟨rfl, rfl, rfl, fun _ => rfl, rfl, rfl, rfl⟩
  have hserves := hclock.serves hs
  obtain ⟨legal, action, hlegal, haction, hvalid⟩ := hserves.choice hd
  have hchoice : action = if legal.canCheck then .check else .fold := by
    unfold timeoutAction at haction
    split at haction
    · rw [if_pos ‹_›]; exact (Option.some.inj haction).symm
    · rw [if_neg ‹_›]
      split at haction
      · exact (Option.some.inj haction).symm
      · cases haction
  have hr := hserves.timeout_recordable hd hhand hroom action
  rcases expireDeadline_cases hserves hd hlegal haction hvalid with ⟨hno, _⟩ | ⟨_, hcore, s', hq, hdeadline, he⟩
  · exact absurd hr hno
  refine ⟨legal, s'.tickResult false (some (s.table.eventOf (timeoutCommand { s with nowTick := now } d action))) (some action),
    s', hlegal, ?_, ?_⟩
  · rw [advanceTime_due hd hnow hdue]
    exact he
  · rw [← hchoice]
    have hhandAfter : (timedOut { s with nowTick := now } d action).table.hand =
        (s.table.hand.applyCommand ⟨d.seat, action⟩).2 := by
      rcases rearmed_cases { ({ s with nowTick := now } : RuntimeState) with
          table := s.table.accepting (timeoutCommand { s with nowTick := now } d action)
          acceptedEvents := s.acceptedEvents ++ [s.table.eventOf (timeoutCommand { s with nowTick := now } d action)] } with
        ⟨_, hre⟩ | ⟨_, _, _, _, hre⟩ <;> rw [timedOut, hre] <;> rfl
    refine ⟨rfl, ⟨_, rfl, _, _, _, rfl⟩, by rw [hq.table]; exact hhandAfter, ?_⟩
    rw [hdeadline, hq.table]
    exact timedOut_clock hserves hcore

/-- With the ledger full the deadline never plays for its seat. -/
theorem Serves.full_wedged (hs : Serves c posted s) (hd : s.deadline = some d)
    (hfull : maxRecordedCommandsPerHand ≤ s.table.recordedCommands.length) {now : Nat} (hnow : s.nowTick ≤ now)
    (hdue : d.dueTick ≤ now) : s.advanceTime now = (.error authorityFailure, { s with nowTick := now }) := by
  have hclock : Quiet s { s with nowTick := now } := ⟨rfl, rfl, rfl, fun _ => rfl, rfl, rfl, rfl⟩
  have hserves := hclock.serves hs
  obtain ⟨legal, action, hlegal, haction, hvalid⟩ := hserves.choice hd
  rw [advanceTime_due hd hnow hdue]
  rcases expireDeadline_cases hserves hd hlegal haction hvalid with ⟨_, he⟩ | ⟨hr, _⟩
  · exact he
  · exact absurd hfull (Nat.not_le.mpr hr.room)

/-- A hand whose runtime starts with a deadline, and where the player of seat 2 can join. -/
theorem threeHanded_armed : ∃ h d, HandStarts threeHanded h ∧ (spawn (.new ⟨1⟩ ⟨1⟩ h)).deadline = some d ∧
    ((RuntimeOp.bind ⟨"guest"⟩ ⟨1⟩ ⟨1⟩ (.player 2)).apply (spawn (.new ⟨1⟩ ⟨1⟩ h))).connectedBinding ⟨"guest"⟩ =
      .ok ⟨.player 2, true⟩ := by
  have hspawn : (threeHanded.build.toOption.map fun h =>
      let s := spawn (.new ⟨1⟩ ⟨1⟩ { h with pacedShowdown := false })
      (s.deadline.isSome,
        (((RuntimeOp.bind ⟨"guest"⟩ ⟨1⟩ ⟨1⟩ (.player 2)).apply s).connectedBinding ⟨"guest"⟩).toOption)) =
      some (true, some ⟨.player 2, true⟩) := by
    decide +kernel
  cases h : threeHanded.build with
  | error e => rw [h] at hspawn; cases hspawn
  | ok start =>
    rw [h] at hspawn
    obtain ⟨harmed, hjoined⟩ := Prod.mk.inj (Option.some.inj hspawn)
    obtain ⟨d, hd⟩ := Option.isSome_iff_exists.mp harmed
    refine ⟨{ start with pacedShowdown := false }, d, ⟨⟨.refl _, rfl⟩, start, false, h, rfl⟩, hd, ?_⟩
    cases hb : connectedBinding ((RuntimeOp.bind ⟨"guest"⟩ ⟨1⟩ ⟨1⟩ (.player 2)).apply
        (spawn (.new ⟨1⟩ ⟨1⟩ { start with pacedShowdown := false }))) ⟨"guest"⟩ with
    | error e => rw [hb] at hjoined; cases hjoined
    | ok binding => rw [hb] at hjoined; rw [Option.some.inj hjoined]

/-! ## A ledger filled by one client -/

/-- A command of a player who is not to act, for a revision that has not been reached. -/
def stale (i : Nat) : CommandEnvelope := ⟨protocolVersion, "stale-" ++ toString i, ⟨1⟩, ⟨1⟩, 1, .act 2 .fold⟩

/-- The player of seat 2 joins and submits the first `n` of them. -/
def fillLedger (n : Nat) : List RuntimeOp :=
  .bind ⟨"guest"⟩ ⟨1⟩ ⟨1⟩ (.player 2) :: (List.range n).map fun i => .submit ⟨"guest"⟩ (stale i)

theorem fillLedger_succ (n : Nat) : fillLedger (n + 1) = fillLedger n ++ [.submit ⟨"guest"⟩ (stale n)] := by
  simp only [fillLedger, List.range_succ, List.map_append, List.map_cons, List.map_nil, List.cons_append]

theorem stale_id {i j : Nat} (h : (stale i).commandId = (stale j).commandId) : i = j := numbered_injective "stale-" h

theorem stale_framed {i : Nat} (h : i < maxRecordedCommandsPerHand) : validCommandId (stale i).commandId = true ∧
    reservedServerCommandId (stale i).commandId = false := by
  constructor
  · exact numbered_valid (by decide) (by decide) (Nat.lt_trans h (by decide))
  · rw [reservedServerCommandId, stale, String.toList_append]
    rfl

/-- A join changes the sessions only. -/
theorem bind_sessions (s : RuntimeState) (session : GuestSessionId) (tableId : TableId) (handId : HandId) (role : SessionRole) :
    ∃ sessions, (s.bind session tableId handId role).2 = { s with sessions := sessions } := by
  unfold RuntimeState.bind
  split_ifs
  · exact ⟨s.sessions, rfl⟩
  · exact ⟨s.sessions, rfl⟩
  · exact ⟨s.sessions, rfl⟩
  · cases role with
    | spectator => exact ⟨_, rfl⟩
    | player seat =>
      dsimp only
      split
      · exact ⟨s.sessions, rfl⟩
      · split
        · exact ⟨s.sessions, rfl⟩
        · exact ⟨_, rfl⟩

/-- What the first stale commands leave. -/
structure Filled (s : RuntimeState) (n : Nat) (s' : RuntimeState) : Prop where
  deadline : s'.deadline = s.deadline
  revision : s'.table.revision = 0
  binding : s'.connectedBinding ⟨"guest"⟩ = .ok ⟨.player 2, true⟩
  ids : s'.tableId = ⟨1⟩ ∧ s'.handId = ⟨1⟩
  recorded : s'.table.recordedCommands.map (·.1) = (List.range n).map fun i => (stale i).commandId

theorem Filled.next {s' : RuntimeState} {n : Nat} (hs : Serves c posted s') (hf : Filled s n s')
    (hn : n < maxRecordedCommandsPerHand) : Filled s (n + 1) ((RuntimeOp.submit ⟨"guest"⟩ (stale n)).apply s') := by
  obtain ⟨hvalid, hfree⟩ := stale_framed hn
  have hlen : s'.table.recordedCommands.length = n := by
    have := congrArg List.length hf.recorded
    simpa using this
  have hunused : s'.table.recorded (stale n).commandId = none := by
    refine List.lookup_eq_none_iff.mpr fun entry he => ?_
    rw [bne_iff_ne]
    intro hid
    have hmem : entry.1 ∈ (List.range n).map fun i => (stale i).commandId := hf.recorded ▸ List.mem_map_of_mem he
    obtain ⟨i, hi, hname⟩ := List.mem_map.mp hmem
    have := stale_id (hname.trans hid.symm)
    rw [this] at hi
    exact absurd (List.mem_range.mp hi) (Nat.lt_irrefl n)
  have hr : s'.table.Recordable (stale n) false :=
    ⟨framingRefusal_none.mpr ⟨rfl, hvalid, Or.inr hfree, by rw [hs.tableId, hf.ids.1]; rfl, by rw [hs.handId, hf.ids.2]; rfl⟩,
      hunused, by rw [hlen]; exact hn⟩
  obtain ⟨response, k, he, hreceipt, _, hold⟩ := @submit_served _ _ _ _ hs _ (stale n) hf.binding (by rw [hf.ids.1]; rfl)
    (by rw [hf.ids.2]; rfl) rfl
  have hexec : s'.table.execute (stale n) = (.rejected (s'.table.error (some (stale n).commandId) .staleRevision
      ("expected revision " ++ toString 1 ++ " does not match authoritative revision " ++ toString s'.table.revision)),
        s'.table) := by
    unfold execute
    rw [if_pos (show (stale n).expectedRevision ≠ s'.table.revision by rw [hf.revision]; exact Nat.one_ne_zero)]
    rfl
  rw [RuntimeOp.apply, he]
  rw [hreceipt, hr.submitFrom, hexec] at hold
  rw [hold rfl]
  refine ⟨hf.deadline, hf.revision, hf.binding, hf.ids, ?_⟩
  simp only [record, List.map_append, hf.recorded, List.range_succ, List.map_cons, List.map_nil]

/-- Every one of them is recorded, while there is room. -/
theorem fillLedger_filled {c : HandConfig} {h : MultiwayHand} {d : ActionDeadline} (hstarts : HandStarts c h)
    (hd : (spawn (.new ⟨1⟩ ⟨1⟩ h)).deadline = some d)
    (hjoined : ((RuntimeOp.bind ⟨"guest"⟩ ⟨1⟩ ⟨1⟩ (.player 2)).apply (spawn (.new ⟨1⟩ ⟨1⟩ h))).connectedBinding ⟨"guest"⟩ =
      .ok ⟨.player 2, true⟩) {n : Nat} (hn : n ≤ maxRecordedCommandsPerHand) :
    ((spawn (.new ⟨1⟩ ⟨1⟩ h)).run (fillLedger n)).deadline = some d ∧
      ((spawn (.new ⟨1⟩ ⟨1⟩ h)).run (fillLedger n)).table.recordedCommands.length = n := by
  have hserves := fun n => (@spawn_serves _ h ⟨1⟩ ⟨1⟩ hstarts).1.run (fillLedger n)
  have hfilled : Filled (spawn (.new ⟨1⟩ ⟨1⟩ h)) n ((spawn (.new ⟨1⟩ ⟨1⟩ h)).run (fillLedger n)) := by
    induction n with
    | zero =>
      obtain ⟨sessions, he⟩ := (spawn (.new ⟨1⟩ ⟨1⟩ h)).bind_sessions ⟨"guest"⟩ ⟨1⟩ ⟨1⟩ (.player 2)
      rw [show (spawn (.new ⟨1⟩ ⟨1⟩ h)).run (fillLedger 0) = { spawn (.new ⟨1⟩ ⟨1⟩ h) with sessions := sessions } from he]
      rw [RuntimeOp.apply, he] at hjoined
      have hs := (@spawn_serves _ h ⟨1⟩ ⟨1⟩ hstarts)
      refine ⟨rfl, by rw [spawn_table]; rfl, hjoined, ⟨hs.1.tableId.symm.trans (by rw [spawn_table]; rfl), hs.2⟩, ?_⟩
      rw [spawn_table]
      rfl
    | succ n ih =>
      have hnext := (ih (Nat.le_of_lt hn)).next (hserves n) hn
      rw [fillLedger_succ, run, List.foldl_append]
      exact hnext
  have hlength := congrArg List.length hfilled.recorded
  simp only [List.length_map, List.length_range] at hlength
  exact ⟨hfilled.deadline.trans hd, hlength⟩

/-- Whatever was submitted before, the seat of an armed deadline can act and its clock can
    act for it, exactly while the hand's command ledger has room. -/
theorem run_unwedged (hstarts : HandStarts c h) (tableId : TableId) {handId : HandId} (hhand : handId.id < 2 ^ 64)
    (ops : List RuntimeOp) (hd : ((spawn (.new tableId handId h)).run ops).deadline = some d) :
    ((spawn (.new tableId handId h)).run ops).Unwedged d ↔
      ((spawn (.new tableId handId h)).run ops).table.recordedCommands.length < maxRecordedCommandsPerHand := by
  obtain ⟨hspawn, hname⟩ := @spawn_serves c h tableId handId hstarts
  have hs := hspawn.run ops
  have hsame := (run_handId hspawn ops).trans hname
  generalize (spawn (.new tableId handId h)).run ops = s at hs hd hsame ⊢
  rw [← hsame] at hhand
  constructor
  · intro hu
    by_contra hfull
    obtain ⟨_, _, _, _, he, _⟩ := hu.expires (max s.nowTick d.dueTick) (Nat.le_max_left _ _) (Nat.le_max_right _ _)
    rw [hs.full_wedged hd (Nat.not_lt.mp hfull) (Nat.le_max_left _ _) (Nat.le_max_right _ _)] at he
    cases he
  · intro hroom
    exact ⟨fun session command action hbound hl => hl.accepted hs hroom hbound,
      fun now hnow hdue => hs.expires hd hhand hroom hnow hdue⟩

/-- Three commands have been refused and recorded. -/
theorem run_unwedged_three : ∃ h d, HandStarts threeHanded h ∧
    ((spawn (.new ⟨1⟩ ⟨1⟩ h)).run (fillLedger 3)).table.recordedCommands.length = 3 ∧
      ((spawn (.new ⟨1⟩ ⟨1⟩ h)).run (fillLedger 3)).deadline = some d ∧
        ((spawn (.new ⟨1⟩ ⟨1⟩ h)).run (fillLedger 3)).Unwedged d := by
  obtain ⟨h, d, hstarts, hd, hjoined⟩ := threeHanded_armed
  obtain ⟨harmed, hlength⟩ := @fillLedger_filled _ h d hstarts hd hjoined 3 (by decide)
  refine ⟨h, d, hstarts, hlength, harmed, (run_unwedged hstarts ⟨1⟩ (by decide) (fillLedger 3) harmed).mpr ?_⟩
  rw [hlength]
  decide

/-- One player who is not to act can keep the clock from ever acting for the seat that is. -/
theorem ledger_filled : ∃ h d, HandStarts threeHanded h ∧
    ((spawn (.new ⟨1⟩ ⟨1⟩ h)).run (fillLedger maxRecordedCommandsPerHand)).deadline = some d ∧
      ¬ ((spawn (.new ⟨1⟩ ⟨1⟩ h)).run (fillLedger maxRecordedCommandsPerHand)).Unwedged d := by
  obtain ⟨h, d, hstarts, hd, hjoined⟩ := threeHanded_armed
  obtain ⟨harmed, hlength⟩ := fillLedger_filled hstarts hd hjoined (Nat.le_refl maxRecordedCommandsPerHand)
  have hserves := (@spawn_serves _ h ⟨1⟩ ⟨1⟩ hstarts).1.run (fillLedger maxRecordedCommandsPerHand)
  refine ⟨h, d, hstarts, harmed, fun hu => ?_⟩
  obtain ⟨_, _, _, _, he, _⟩ := hu.expires (max _ d.dueTick) (Nat.le_max_left _ _) (Nat.le_max_right _ _)
  rw [hserves.full_wedged harmed (Nat.le_of_eq hlength.symm) (Nat.le_max_left _ _) (Nat.le_max_right _ _)] at he
  cases he

end deadlines

end RuntimeState

end OpenFelt
