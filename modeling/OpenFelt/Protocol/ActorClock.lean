/-
  OpenFelt.Protocol.ActorClock — the deadline is the clock of the seat to act.

  Proved, of every runtime reached by any requests (`run_tracks`): a deadline is armed
  for a seat exactly while that seat is to act; what arms it anew is an accepted action,
  a timeout or a showdown step, so a submission that is rejected, replayed or a
  preference leaves it as it was; and of two deadlines the later armed has the larger
  generation, so what a deadline does for its seat it does while it is the one armed.
-/

import OpenFelt.Protocol.Announcements

namespace OpenFelt

open MultiwayHand (Stage HandStarts)

/-- The game has moved on: a preference leaves the seat to act where it is. -/
def TableEvent.moves : TableEvent → Bool
  | actionAccepted .. | showdownAdvanced => true
  | showdownPreferenceAccepted _ => false

/-! ## Runs in machine words -/

/-- A deadline's ticks are `u64`, and an addition past them wraps. A build that checks for
    overflow ends the runtime there, and nothing is asked of it any more. -/
def ActionDeadline.wrapped (d : ActionDeadline) : ActionDeadline :=
  { d with warningTick := d.warningTick % 2 ^ 64, dueTick := d.dueTick % 2 ^ 64 }

theorem ActionDeadline.wrapped_twice (d : ActionDeadline) : d.wrapped.wrapped = d.wrapped := by
  simp only [ActionDeadline.wrapped, Nat.mod_mod]

namespace RuntimeState

open ProtocolAuthority

def wrapped (s : RuntimeState) : RuntimeState := { s with deadline := s.deadline.map ActionDeadline.wrapped }

def step64 (s : RuntimeState) (op : RuntimeOp) : RuntimeState := (op.apply s).wrapped

def run64 (s : RuntimeState) (ops : List RuntimeOp) : RuntimeState := ops.foldl step64 s

/-! ## What a request does to the clock -/

/-- What a request does to the deadline. -/
inductive ClockStep (s : RuntimeState) (op : RuntimeOp) (s' : RuntimeState) : Prop
  | kept (events : List EventEnvelope) : s'.acceptedEvents = s.acceptedEvents ++ events → (∀ e ∈ events, e.event.moves = false) →
      s'.deadline = s.deadline → s'.deadlineGeneration = s.deadlineGeneration → ClockStep s op s'
  | warned (now : Nat) (d : ActionDeadline) : op = .advanceTime now → s'.acceptedEvents = s.acceptedEvents → s.deadline = some d →
      s'.deadline = some { d with warningEmitted := true } → s'.deadlineGeneration = s.deadlineGeneration → ClockStep s op s'
  | rearmed (event : EventEnvelope) : s'.acceptedEvents = s.acceptedEvents ++ [event] → event.event.moves = true →
      s.deadlineGeneration ≤ s'.deadlineGeneration →
      (∀ d, s'.deadline = some d → d.generation = s.deadlineGeneration + 1 ∧ d.warningEmitted = false) → ClockStep s op s'

/-- A deadline that has run out acts for its seat while it is the one armed, and under its
    own generation's command id. -/
structure TimeoutOf (s : RuntimeState) (now : Nat) (event : EventEnvelope) (d : ActionDeadline) : Prop where
  armed : s.deadline = some d
  due : d.dueTick ≤ now
  named : event.commandId = timeoutCommandId s.handId d.generation
  acts : ∃ action phase next pot, event.event = .actionAccepted d.seat action phase next pot

/-- The deadline follows the seat to act. -/
structure TracksActor (s : RuntimeState) : Prop where
  armed : ∀ seat, (∃ d, s.deadline = some d ∧ d.seat = seat) ↔ s.table.hand.toAct = some seat
  requests : ∀ op, ClockStep s op (s.step64 op)
  /-- A submission that fails, is rejected or replayed, or states a preference. -/
  submissions : ∀ session command,
    (∀ response, (s.submit session command).1 = .ok response → response.receipt.acceptedNew = true →
      ∃ seat always, command.payload = .showdownPreference seat always) →
    (s.step64 (.submit session command)).deadline = s.deadline
  timeouts : ∀ now event, (s.step64 (.advanceTime now)).acceptedEvents = s.acceptedEvents ++ [event] →
    ∃ d, s.TimeoutOf now event d
  /-- Two deadlines are the same one, warned or not, or the later has the larger generation. -/
  generations : ∀ later d d', s.deadline = some d → (s.run64 later).deadline = some d' →
    ∃ events, (s.run64 later).acceptedEvents = s.acceptedEvents ++ events ∧
      if events.any (·.event.moves) then d.generation < d'.generation
      else d' = { d with warningEmitted := d'.warningEmitted }

section clock
variable {c : HandConfig} {h : MultiwayHand} {posted : Nat} {s s' s₁ : RuntimeState} {op : RuntimeOp}
  {reason : SubscriptionReason} {event : Option EventEnvelope}

theorem eventOf_moves (a : ProtocolAuthority) {command : CommandEnvelope} {seat : SeatId} {action : Action}
    (hpayload : command.payload = .act seat action) : (a.eventOf command).event.moves = true := by
  simp [eventOf, hpayload, acceptedEvent, TableEvent.moves]

theorem eventOf_prefers (a : ProtocolAuthority) {command : CommandEnvelope} {seat : SeatId} {always : Bool}
    (hpayload : command.payload = .showdownPreference seat always) : (a.eventOf command).event.moves = false := by
  simp [eventOf, hpayload, acceptedEvent, TableEvent.moves]

/-- Arming the deadline anew counts one generation at most. -/
theorem rearmed_clock (s : RuntimeState) : s.deadlineGeneration ≤ s.rearmed.deadlineGeneration ∧
    ∀ d, s.rearmed.deadline = some d → d.generation = s.deadlineGeneration + 1 ∧ d.warningEmitted = false := by
  unfold rearmed
  cases s.table.hand.toAct with
  | none => exact ⟨Nat.le_refl _, fun d hd => by cases hd⟩
  | some seat => exact ⟨Nat.le_succ _, fun d hd => by cases hd; exact ⟨rfl, rfl⟩⟩

theorem ClockStep.of_rearmed {e : EventEnvelope} (he : s₁.acceptedEvents = s.acceptedEvents ++ [e]) (hm : e.event.moves = true)
    (hgen : s₁.deadlineGeneration = s.deadlineGeneration) : ClockStep s op s₁.rearmed := by
  obtain ⟨hle, hnew⟩ := s₁.rearmed_clock
  rw [hgen] at hle hnew
  exact .rearmed e (by rw [rearmed_acceptedEvents, he]) hm hle hnew

theorem Announces.clock (ha : Announces s op reason event s₁) : ClockStep s op s₁ := by
  cases ha with
  | acted session command seat action _ hpayload => exact .of_rearmed rfl (eventOf_moves _ hpayload) rfl
  | preferred session command seat always _ hpayload =>
    refine .kept [s.table.eventOf command] rfl ?_ rfl rfl
    intro e he
    rw [List.mem_singleton.mp he]
    exact eventOf_prefers _ hpayload
  | timedOut now d action => exact .of_rearmed rfl (eventOf_moves _ rfl) rfl
  | warned now d _ hd => exact .warned now d rfl rfl hd rfl rfl
  | advanced now event table hadv =>
    have hkind : event.event = .showdownAdvanced := by
      unfold ProtocolAuthority.advanceShowdown at hadv
      split at hadv
      · cases hadv
      · cases hadv; rfl
    exact .of_rearmed rfl (by rw [hkind]; rfl) rfl
  | left | returned => exact .kept [] (List.append_nil _).symm (fun _ he => absurd he List.not_mem_nil) rfl rfl

theorem Performs.clock (hp : Performs s op s') (hs : Serves c posted s) : ClockStep s op s' := by
  have hsame : ∀ k : RuntimeState, k.acceptedEvents = s.acceptedEvents → k.deadline = s.deadline →
      k.deadlineGeneration = s.deadlineGeneration → ClockStep s op k := by
    intro k hevents hd hgen
    exact .kept [] (by rw [hevents, List.append_nil]) (fun _ he => absurd he List.not_mem_nil) hd hgen
  cases hp with
  | @announced _ reason event s₁ ha =>
    obtain ⟨subscribers, he, _⟩ := broadcast_told (ha.serves hs).toBound reason event
    rw [he]
    cases ha.clock with
    | kept events he hm hd hgen => exact .kept events he hm hd hgen
    | warned now d hop he hd hd' hgen => exact .warned now d hop he hd hd' hgen
    | rearmed e he hm hle hnew => exact .rearmed e he hm hle hnew
  | unchanged | bound | refused | ticked | paced | subscribed | received | hungUp => exact hsame _ rfl rfl rfl

/-! ## Runs -/

theorem wrapped_quiet (s : RuntimeState) : Quiet s s.wrapped := by
  refine ⟨rfl, rfl, rfl, fun _ => rfl, ?_, rfl, rfl⟩
  simp only [wrapped, Option.map_map]
  rfl

/-- Between requests the ticks fit in their words. -/
def Fits (s : RuntimeState) : Prop := s.deadline.map ActionDeadline.wrapped = s.deadline

theorem wrapped_fits (s : RuntimeState) : s.wrapped.Fits := by
  simp only [Fits, wrapped, Option.map_map]
  congr 1
  funext d
  exact d.wrapped_twice

theorem ClockStep.wrapped (hc : ClockStep s op s') (hf : s.Fits) : ClockStep s op s'.wrapped := by
  cases hc with
  | kept events he hm hd hgen =>
    refine .kept events he hm ?_ hgen
    rw [RuntimeState.wrapped, hd]
    exact hf
  | warned now d hop he hd hd' hgen =>
    refine .warned now d hop he hd ?_ hgen
    have hfits : d.wrapped = d := by
      have := hf
      rw [Fits, hd] at this
      exact Option.some.inj this
    have hticks : d.warningTick % 2 ^ 64 = d.warningTick ∧ d.dueTick % 2 ^ 64 = d.dueTick :=
      ⟨congrArg ActionDeadline.warningTick hfits, congrArg ActionDeadline.dueTick hfits⟩
    rw [RuntimeState.wrapped, hd']
    simp only [Option.map_some, ActionDeadline.wrapped, hticks.1, hticks.2]
  | rearmed e he hm hle hnew =>
    refine .rearmed e he hm hle ?_
    intro d hd
    obtain ⟨x, hx, rfl⟩ := Option.map_eq_some_iff.mp hd
    exact hnew x hx

/-- What holds between two requests. -/
structure Ready (c : HandConfig) (posted : Nat) (s : RuntimeState) : Prop where
  serves : Serves c posted s
  fits : s.Fits

theorem Ready.step (hr : Ready c posted s) (op : RuntimeOp) : Ready c posted (s.step64 op) :=
  ⟨(wrapped_quiet _).serves ((hr.serves.apply op).serves hr.serves), wrapped_fits _⟩

theorem Ready.run (hr : Ready c posted s) (ops : List RuntimeOp) : Ready c posted (s.run64 ops) := by
  induction ops generalizing s with
  | nil => exact hr
  | cons op ops ih => exact ih (hr.step op)

theorem Ready.clock (hr : Ready c posted s) (op : RuntimeOp) : ClockStep s op (s.step64 op) :=
  ((hr.serves.performs op).clock hr.serves).wrapped hr.fits

/-- What is the same of a deadline once its warning is sent. -/
def unwarned (d : ActionDeadline) : ActionDeadline := { d with warningEmitted := false }

/-- Along a run the deadline changes with the game only, and its generation grows. -/
theorem Ready.generations (hr : Ready c posted s) (ops : List RuntimeOp) : ∃ events,
    (s.run64 ops).acceptedEvents = s.acceptedEvents ++ events ∧ s.deadlineGeneration ≤ (s.run64 ops).deadlineGeneration ∧
      if events.any (·.event.moves) then ∀ d, (s.run64 ops).deadline = some d → s.deadlineGeneration < d.generation
      else (s.run64 ops).deadline.map unwarned = s.deadline.map unwarned := by
  induction ops generalizing s with
  | nil => exact ⟨[], (List.append_nil _).symm, Nat.le_refl _, rfl⟩
  | cons op ops ih =>
    obtain ⟨events, hevents, hle, hlater⟩ := ih (hr.step op)
    rw [show s.run64 (op :: ops) = (s.step64 op).run64 ops from rfl]
    generalize (s.step64 op).run64 ops = last at hevents hle hlater ⊢
    cases hr.clock op with
    | kept first hfirst hm hd hgen =>
      refine ⟨first ++ events, by rw [hevents, hfirst, List.append_assoc], hgen ▸ hle, ?_⟩
      rw [List.any_append, List.any_eq_false.mpr fun e he => by rw [hm e he]; exact Bool.false_ne_true,
        Bool.false_or, ← hd, ← hgen]
      exact hlater
    | warned now d hop he hd hd' hgen =>
      refine ⟨events, by rw [hevents, he], hgen ▸ hle, ?_⟩
      rw [hd', hgen] at hlater
      rw [hd]
      exact hlater
    | rearmed e he hm hstep hnew =>
      refine ⟨e :: events, by rw [hevents, he, List.append_assoc]; rfl, Nat.le_trans hstep hle, ?_⟩
      rw [List.any_cons, hm, Bool.true_or, if_pos rfl]
      intro d hd
      by_cases hany : events.any (·.event.moves) = true
      · rw [if_pos hany] at hlater
        have := hlater d hd
        omega
      · rw [if_neg hany, hd] at hlater
        obtain ⟨d', hd', hsame⟩ := Option.map_eq_some_iff.mp hlater.symm
        have hgen := (hnew d' hd').1
        have : d.generation = d'.generation := (congrArg ActionDeadline.generation hsame).symm
        omega

theorem Ready.timeout (hr : Ready c posted s) {now : Nat} {e : EventEnvelope}
    (he : (s.step64 (.advanceTime now)).acceptedEvents = s.acceptedEvents ++ [e]) : ∃ d, s.TimeoutOf now e d := by
  have hnone : ∀ l : List EventEnvelope, l ≠ l ++ [e] := fun l h => by
    have := congrArg List.length h
    simp at this
  have hevents : ((RuntimeOp.advanceTime now).apply s).acceptedEvents = s.acceptedEvents ++ [e] := he
  have hp := hr.serves.performs (.advanceTime now)
  generalize (RuntimeOp.advanceTime now).apply s = s' at hp hevents
  cases hp with
  | @announced _ reason event s₁ ha =>
    obtain ⟨subscribers, hb, _⟩ := broadcast_told (ha.serves hr.serves).toBound reason event
    rw [hb] at hevents
    cases ha with
    | timedOut now d action _ hd hdue _ _ =>
      rw [rearmed_acceptedEvents] at hevents
      obtain rfl := List.singleton_inj.mp (List.append_cancel_left hevents)
      exact ⟨d, hd, hdue, rfl, action, _, _, _, rfl⟩
    | warned => exact absurd hevents (hnone _)
  | unchanged | ticked => exact absurd hevents (hnone _)

theorem Ready.tracks (hr : Ready c posted s) : s.TracksActor where
  armed := by
    intro seat
    rw [← hr.serves.armed, Option.map_eq_some_iff]
  requests := hr.clock
  submissions := by
    intro session command hplain
    have hsubmits := hr.serves.submits session command
    have hsame : (s.submit session command).2.deadline = s.deadline := by
      generalize s.submit session command = answer at hsubmits hplain
      cases hsubmits with
      | failed error => rfl
      | answered receipt snapshot table _ _ _ _ => rfl
      | accepted snapshot s₁ _ ha _ =>
        obtain ⟨subscribers, hb, _⟩ := broadcast_told (ha.serves hr.serves).toBound .actionAccepted
          (some (s.table.eventOf command))
        obtain ⟨seat, always, hpayload⟩ := hplain _ rfl (by
          simp [SubmissionReceipt.acceptedNew, receipt, CommandOutcome.result])
        rw [hb]
        cases ha with
        | acted _ _ _ _ _ hact => rw [hact] at hpayload; cases hpayload
        | preferred => rfl
    show (s.submit session command).2.deadline.map ActionDeadline.wrapped = s.deadline
    rw [hsame]
    exact hr.fits
  timeouts := fun now e he => hr.timeout he
  generations := by
    intro later d d' hd hd'
    obtain ⟨events, he, _, hlater⟩ := hr.generations later
    refine ⟨events, he, ?_⟩
    split
    · rename_i hany
      rw [if_pos hany] at hlater
      have := hlater d' hd'
      rwa [hr.serves.current d hd]
    · rename_i hany
      rw [if_neg hany, hd, hd'] at hlater
      have hsame := Option.some.inj hlater
      cases d
      cases d'
      simp only [unwarned, ActionDeadline.mk.injEq] at hsame ⊢
      exact ⟨hsame.1, hsame.2.1, hsame.2.2.1, trivial, hsame.2.2.2.2⟩

theorem spawn_ready {tableId : TableId} {handId : HandId} (hstarts : HandStarts c h) :
    Ready c h.currentWager (spawn (.new tableId handId h)) := by
  refine ⟨(spawn_serves hstarts).1, ?_⟩
  unfold spawn
  dsimp only
  rw [rescheduleDeadline_eq]
  unfold rearmed
  dsimp only
  cases hto : h.toAct with
  | none =>
    rw [show (ProtocolAuthority.new tableId handId h).hand.toAct = none from hto]
    rfl
  | some seat =>
    rw [show (ProtocolAuthority.new tableId handId h).hand.toAct = some seat from hto]
    rfl

/-- From the start of a hand on, whatever is asked of its runtime, the deadline follows the
    seat to act. -/
theorem run_tracks (hstarts : HandStarts c h) (tableId : TableId) (handId : HandId) (ops : List RuntimeOp) :
    ((spawn (.new tableId handId h)).run64 ops).TracksActor :=
  ((spawn_ready hstarts).run ops).tracks

theorem run_tracks_three : ∃ h d, HandStarts threeHanded h ∧ (spawn (.new ⟨1⟩ ⟨1⟩ h)).deadline = some d ∧
    ((spawn (.new ⟨1⟩ ⟨1⟩ h)).run64 [.advanceTime d.dueTick]).TracksActor := by
  obtain ⟨h, d, hs, hd, _⟩ := threeHanded_armed
  exact ⟨h, d, hs, hd, run_tracks hs ⟨1⟩ ⟨1⟩ _⟩

end clock

end RuntimeState

end OpenFelt
