/-
  OpenFelt.Protocol.Provenance — by whose right a hand moves.

  Proved, of every runtime reached by any requests (`run_entitled`): the hand is what the
  published events tell of, one accepted call each, from the hand that was dealt; the
  events carry the revisions 1, 2, 3 and so on; each was published by a connected session
  for the seat it holds, by the seat's own deadline or by the showdown's clock; and all
  that a seat's players ever did came from one session.
-/

import OpenFelt.Protocol.Announcements

namespace OpenFelt

open MultiwayHand (Stage HandStarts)

/-! ## What events tell -/

/-- The call on the hand that an event tells of. -/
inductive TableEvent.TellsOf (h : MultiwayHand) : TableEvent → HandOp → Prop
  | action (seat : SeatId) (action : Action) :
      TellsOf h (.actionAccepted seat action h.phase (h.applyCommand ⟨seat, action⟩).2.toAct
        (h.applyCommand ⟨seat, action⟩).2.projectionPotTotal) (.command ⟨seat, action⟩)
  | preference (seat : SeatId) (alwaysShow : Bool) : TellsOf h (.showdownPreferenceAccepted seat) (.alwaysShow seat alwaysShow)
  | showdown : TellsOf h .showdownAdvanced .advance

/-- A hand's calls, each accepted and told of by its event. -/
inductive Chronicle : MultiwayHand → List (TableEvent × HandOp) → MultiwayHand → Prop
  | nil (h : MultiwayHand) : Chronicle h [] h
  | snoc {h k : MultiwayHand} {calls : List (TableEvent × HandOp)} {event : TableEvent} {call : HandOp} :
      Chronicle h calls k → event.TellsOf k call → (call.apply k).1 = true →
      Chronicle h (calls ++ [(event, call)]) (call.apply k).2

namespace RuntimeState

open ProtocolAuthority

/-- By whose right a request publishes an event. -/
inductive Entitled (s : RuntimeState) : RuntimeOp → TableEvent → Prop
  | acted (session : GuestSessionId) (command : CommandEnvelope) (seat : SeatId) (action : Action) (phase : MultiwayPhase)
      (next : Option SeatId) (pot : Nat) : s.sessions.find? session = some ⟨.player seat, true⟩ →
      command.payload = .act seat action → s.Accepts session command →
      Entitled s (.submit session command) (.actionAccepted seat action phase next pot)
  | preferred (session : GuestSessionId) (command : CommandEnvelope) (seat : SeatId) (alwaysShow : Bool) :
      s.sessions.find? session = some ⟨.player seat, true⟩ → command.payload = .showdownPreference seat alwaysShow →
      s.Accepts session command → Entitled s (.submit session command) (.showdownPreferenceAccepted seat)
  | timedOut (now : Nat) (d : ActionDeadline) (action : Action) (phase : MultiwayPhase) (next : Option SeatId) (pot : Nat) :
      s.deadline = some d → d.dueTick ≤ now → s.table.hand.toAct = some d.seat →
      Entitled s (.advanceTime now) (.actionAccepted d.seat action phase next pot)
  | shown (now : Nat) : Entitled s (.progressShowdown now) .showdownAdvanced

section requests
variable {c : HandConfig} {posted : Nat} {s s' : RuntimeState} {op : RuntimeOp} {session : GuestSessionId}

/-- What publishing an event does to the table. -/
structure Publishes (s : RuntimeState) (op : RuntimeOp) (s' : RuntimeState) (event : EventEnvelope) : Prop where
  appended : s'.acceptedEvents = s.acceptedEvents ++ [event]
  numbered : event.revision = s.table.revision + 1
  revision : s'.table.revision = s.table.revision + 1
  entitled : s.Entitled op event.event
  hand : ∃ call, event.event.TellsOf s.table.hand call ∧ (call.apply s.table.hand).1 = true ∧
    s'.table.hand = (call.apply s.table.hand).2

/-- An accepted payload is an accepted call, and its event tells of it. -/
theorem accepting_tells {a : ProtocolAuthority} {envelope : CommandEnvelope}
    (hok : (a.applyPayload envelope.payload).1 = .ok ()) : ∃ call, (a.eventOf envelope).event.TellsOf a.hand call ∧
      (call.apply a.hand).1 = true ∧ (a.accepting envelope).hand = (call.apply a.hand).2 := by
  unfold eventOf accepting
  cases hpayload : envelope.payload with
  | act seat action =>
    rw [hpayload] at hok
    refine ⟨.command ⟨seat, action⟩, .action seat action, ?_, rfl⟩
    simp only [applyPayload] at hok
    simp [HandOp.apply, hok, Except.isOk, Except.toBool]
  | showdownPreference seat alwaysShow =>
    rw [hpayload] at hok
    refine ⟨.alwaysShow seat alwaysShow, .preference seat alwaysShow, ?_, rfl⟩
    simp only [applyPayload] at hok
    simp [HandOp.apply, hok, Except.isOk, Except.toBool]

theorem advanceShowdown_tells {a table : ProtocolAuthority} {event : EventEnvelope}
    (h : a.advanceShowdown = (some event, table)) : event.event = .showdownAdvanced ∧ event.revision = a.revision + 1 ∧
      table.revision = a.revision + 1 ∧ (HandOp.advance.apply a.hand).1 = true ∧
        table.hand = (HandOp.advance.apply a.hand).2 := by
  unfold advanceShowdown at h
  cases hadv : a.hand.advanceShowdown with
  | mk moved hand =>
    rw [hadv] at h
    cases moved with
    | false => cases h
    | true =>
      cases h
      simp [HandOp.apply, hadv]

/-- A request leaves the table alone, or publishes one event. -/
theorem Serves.publishes (hs : Serves c posted s) (op : RuntimeOp) :
    ((op.apply s).acceptedEvents = s.acceptedEvents ∧ (op.apply s).table.hand = s.table.hand ∧
      (op.apply s).table.revision = s.table.revision) ∨ ∃ event, Publishes s op (op.apply s) event := by
  have hp := hs.performs op
  generalize op.apply s = s' at hp ⊢
  cases hp with
  | @announced _ reason event s₁ ha =>
    obtain ⟨subscribers, he, _⟩ := broadcast_told (ha.serves hs).toBound reason event
    rw [he]
    cases ha with
    | acted session command seat action haccepts hpayload =>
      obtain ⟨hfind, _⟩ := connectedBinding_ok haccepts.connected
      refine Or.inr ⟨s.table.eventOf command, by simp [recording], rfl, by simp [recording, accepting, record], ?_, ?_⟩
      · have hevent : (s.table.eventOf command).event = .actionAccepted seat action s.table.hand.phase
            (s.table.applyPayload command.payload).2.toAct (s.table.applyPayload command.payload).2.projectionPotTotal := by
          simp [eventOf, acceptedEvent, hpayload]
        rw [hevent]
        rw [hpayload] at hfind
        exact .acted session command seat action _ _ _ hfind hpayload haccepts
      · simpa [recording] using accepting_tells haccepts.applies
    | preferred session command seat always haccepts hpayload =>
      obtain ⟨hfind, _⟩ := connectedBinding_ok haccepts.connected
      refine Or.inr ⟨s.table.eventOf command, by simp [recording], rfl, by simp [recording, accepting, record], ?_, ?_⟩
      · have hevent : (s.table.eventOf command).event = .showdownPreferenceAccepted seat := by
          simp [eventOf, acceptedEvent, hpayload]
        rw [hevent]
        rw [hpayload] at hfind
        exact .preferred session command seat always hfind hpayload haccepts
      · simpa [recording] using accepting_tells haccepts.applies
    | timedOut now d action hnow hd hdue hr happlies =>
      have hto : s.table.hand.toAct = some d.seat := by rw [← hs.armed, hd]; rfl
      refine Or.inr ⟨s.table.eventOf (s.timeoutCommand d action), by simp [recording], rfl,
        by simp [recording, accepting, record], ?_, ?_⟩
      · exact .timedOut now d action _ _ _ hd hdue hto
      · have htells := @accepting_tells s.table (s.timeoutCommand d action) happlies
        simpa [recording] using htells
    | warned | left | returned => exact Or.inl ⟨by simp, rfl, rfl⟩
    | advanced now event table hadv =>
      obtain ⟨hevent, hnumber, hrevision, hok, hhand⟩ := advanceShowdown_tells hadv
      refine Or.inr ⟨event, by simp, hnumber, by simpa using hrevision, ?_, .advance, ?_, hok, by simpa using hhand⟩
      · rw [hevent]
        exact .shown now
      · rw [hevent]
        exact .showdown
  | refused | unchanged | bound | ticked | paced | subscribed | received | hungUp => exact Or.inl ⟨rfl, rfl, rfl⟩

/-- A session keeps the role it was bound to. -/
theorem Serves.role (hs : Serves c posted s) (op : RuntimeOp) {binding : SessionBinding}
    (hf : s.sessions.find? session = some binding) :
    ∃ binding', (op.apply s).sessions.find? session = some binding' ∧ binding'.role = binding.role := by
  have hquiet : ∀ {s s' : RuntimeState} {binding : SessionBinding}, Quiet s s' → s.sessions.find? session = some binding →
      ∃ binding', s'.sessions.find? session = some binding' ∧ binding'.role = binding.role := by
    intro s s' binding hq hf
    have hroles := hq.roles session
    rw [hf] at hroles
    obtain ⟨binding', hf', hr⟩ := Option.map_eq_some_iff.mp hroles
    exact ⟨binding', hf', hr⟩
  obtain ⟨s₁, s₂, h1, h2, h3⟩ := hs.apply op
  obtain ⟨b₁, hf₁, hr₁⟩ := hquiet h1 hf
  have hcore : s₂.sessions.find? session = some b₁ := by
    cases h2 with
    | bound other role hnew _ _ =>
      rw [OrdMap.find_insert, if_neg ?_]
      · exact hf₁
      · rintro rfl
        rw [hnew] at hf₁
        cases hf₁
    | same | refused _ _ _ _ _ | preferred _ _ _ _ _ _ => exact hf₁
    | acted _ _ _ _ _ _ | timedOut _ _ _ _ _ _ _ _ | advanced _ _ _ => rw [rearmed_sessions]; exact hf₁
  obtain ⟨b₂, hf₂, hr₂⟩ := hquiet h3 hcore
  exact ⟨b₂, hf₂, hr₂.trans hr₁⟩

end requests

/-! ## Runs -/

/-- What the events published since `hand` was dealt say of it, and of who played it. -/
structure Provenance (hand : MultiwayHand) (start : RuntimeState) (ops : List RuntimeOp) : Prop where
  /-- The hand is what the events tell of. -/
  history : ∃ calls, calls.map Prod.fst = (start.run ops).acceptedEvents.map (·.event) ∧
    Chronicle hand calls (start.run ops).table.hand
  revision : (start.run ops).table.revision = (start.run ops).acceptedEvents.length
  numbered : ∀ i event, (start.run ops).acceptedEvents[i]? = some event → event.revision = i + 1
  /-- Each event was published by a request entitled to it. -/
  entitled : ∀ i event, (start.run ops).acceptedEvents[i]? = some event → ∃ before op after, ops = before ++ op :: after ∧
    (start.run before).acceptedEvents.length = i ∧ (start.run before).Entitled op event.event
  /-- One seat, one session. -/
  owned : ∀ before after before' after' x y command command', ops = before ++ .submit x command :: after →
    ops = before' ++ .submit y command' :: after' → (start.run before).Accepts x command →
      (start.run before').Accepts y command' → command.payload.seat = command'.payload.seat → x = y

section runs
variable {c : HandConfig} {h : MultiwayHand} {posted : Nat} {s : RuntimeState} {ops : List RuntimeOp} {session : GuestSessionId}

theorem run_then (s : RuntimeState) (ops more : List RuntimeOp) : s.run (ops ++ more) = (s.run ops).run more := by
  simp [RuntimeState.run]

theorem Serves.run_role (hs : Serves c posted s) (ops : List RuntimeOp) {binding : SessionBinding}
    (hf : s.sessions.find? session = some binding) :
    ∃ binding', (s.run ops).sessions.find? session = some binding' ∧ binding'.role = binding.role := by
  induction ops generalizing s binding with
  | nil => exact ⟨binding, hf, rfl⟩
  | cons op ops ih =>
    obtain ⟨b, hb, hr⟩ := hs.role op hf
    obtain ⟨b', hb', hr'⟩ := ih ((hs.apply op).serves hs) hb
    exact ⟨b', hb', hr'.trans hr⟩

/-- Two sessions that hold a seat, at whatever points of a run, are one. -/
theorem Serves.run_owned (hs : Serves c posted s) {before before' : List RuntimeOp} (hle : before.IsPrefix before')
    {x y : GuestSessionId} {seat : SeatId} (hx : (s.run before).sessions.find? x = some ⟨.player seat, true⟩)
    (hy : (s.run before').sessions.find? y = some ⟨.player seat, true⟩) : x = y := by
  obtain ⟨more, rfl⟩ := hle
  obtain ⟨binding, hf, hr⟩ := (hs.run before).run_role more hx
  rw [← run_then] at hf
  exact (hs.run (before ++ more)).owned x y binding _ seat hf hr hy rfl

theorem Serves.provenance (hs : Serves c posted s) (hnone : s.acceptedEvents = []) (hrevision : s.table.revision = 0)
    (ops : List RuntimeOp) : Provenance s.table.hand s ops := by
  have howned : ∀ before after before' after' x y command command', ops = before ++ .submit x command :: after →
      ops = before' ++ .submit y command' :: after' → (s.run before).Accepts x command →
      (s.run before').Accepts y command' → command.payload.seat = command'.payload.seat → x = y := by
    intro before after before' after' x y command command' he he' hx hy hseat
    have hfindx := (connectedBinding_ok hx.connected).1
    have hfindy := (connectedBinding_ok hy.connected).1
    rw [hseat] at hfindx
    have hbefore : before.IsPrefix ops := ⟨_, he.symm⟩
    have hbefore' : before'.IsPrefix ops := ⟨_, he'.symm⟩
    rcases List.prefix_or_prefix_of_prefix hbefore hbefore' with hle | hle
    · exact hs.run_owned hle hfindx hfindy
    · exact (hs.run_owned hle hfindy hfindx).symm
  suffices hrun : (∃ calls, calls.map Prod.fst = (s.run ops).acceptedEvents.map (·.event) ∧
      Chronicle s.table.hand calls (s.run ops).table.hand) ∧
      (s.run ops).table.revision = (s.run ops).acceptedEvents.length ∧
      ∀ i event, (s.run ops).acceptedEvents[i]? = some event → event.revision = i + 1 ∧ ∃ before op after,
        ops = before ++ op :: after ∧ (s.run before).acceptedEvents.length = i ∧ (s.run before).Entitled op event.event by
    obtain ⟨hhistory, hcount, hevents⟩ := hrun
    exact ⟨hhistory, hcount, fun i event hi => (hevents i event hi).1, fun i event hi => (hevents i event hi).2, howned⟩
  clear howned
  induction ops using List.reverseRecOn with
  | nil =>
    refine ⟨⟨[], by simp [RuntimeState.run, hnone], .nil _⟩, ?_, fun i event hi => ?_⟩
    · simp [RuntimeState.run, hnone, hrevision]
    · simp [RuntimeState.run, hnone] at hi
  | append_singleton ops op ih =>
    obtain ⟨⟨calls, hcalls, hchronicle⟩, hcount, hevents⟩ := ih
    have hlast : s.run (ops ++ [op]) = op.apply (s.run ops) := by simp [RuntimeState.run]
    have hearlier : ∀ i event, (s.run ops).acceptedEvents[i]? = some event → event.revision = i + 1 ∧
        ∃ before op' after, ops ++ [op] = before ++ op' :: after ∧ (s.run before).acceptedEvents.length = i ∧
          (s.run before).Entitled op' event.event := by
      intro i event hi
      obtain ⟨hnumber, before, op', after, he, hlen, hright⟩ := hevents i event hi
      exact ⟨hnumber, before, op', after ++ [op], by rw [he]; simp, hlen, hright⟩
    rw [hlast]
    rcases (hs.run ops).publishes op with ⟨hsame, hhand, hrev⟩ | ⟨event, hpub⟩
    · rw [hsame, hhand, hrev]
      exact ⟨⟨calls, hcalls, hchronicle⟩, hcount, hearlier⟩
    · obtain ⟨call, htells, hok, hhand⟩ := hpub.hand
      refine ⟨⟨calls ++ [(event.event, call)], ?_, ?_⟩, ?_, ?_⟩
      · rw [hpub.appended, List.map_append, List.map_append, hcalls]
        rfl
      · rw [hhand]
        exact hchronicle.snoc htells hok
      · rw [hpub.revision, hpub.appended, hcount, List.length_append, List.length_singleton]
      · intro i last hi
        rw [hpub.appended, List.getElem?_append] at hi
        split at hi
        · exact hearlier i last hi
        · rename_i hge
          have hi0 : i - (s.run ops).acceptedEvents.length = 0 := by
            by_contra hpos
            rw [List.getElem?_eq_none (by simpa using Nat.one_le_iff_ne_zero.mpr hpos)] at hi
            cases hi
          rw [hi0] at hi
          obtain rfl : event = last := by simpa using hi
          have hat : (s.run ops).acceptedEvents.length = i := by omega
          exact ⟨by rw [hpub.numbered, hcount, hat], ops, op, [], rfl, hat, hpub.entitled⟩

theorem spawn_published (table : ProtocolAuthority) : (spawn table).acceptedEvents = [] := by
  unfold spawn
  dsimp only
  rw [rescheduleDeadline_eq, rearmed_acceptedEvents]

/-- Whatever is asked of a table, and by whom, its hand moves only by right. -/
theorem run_entitled (hstarts : HandStarts c h) (tableId : TableId) (handId : HandId) (ops : List RuntimeOp) :
    Provenance h (spawn (.new tableId handId h)) ops := by
  have hs : Serves c h.currentWager (spawn (.new tableId handId h)) := (spawn_serves hstarts).1
  have htable := spawn_table (.new tableId handId h)
  have hprovenance := hs.provenance (spawn_published _) (by rw [htable]; rfl) ops
  rwa [htable] at hprovenance

theorem run_entitled_three : ∃ h, HandStarts threeHanded h ∧
    Provenance h (spawn (.new ⟨1⟩ ⟨1⟩ h)) [.bind ⟨"guest"⟩ ⟨1⟩ ⟨1⟩ (.player 2), .advanceTime 60] := by
  obtain ⟨h, hs, _⟩ := threeHanded_starts
  exact ⟨h, hs, run_entitled hs ⟨1⟩ ⟨1⟩ _⟩

end runs

end RuntimeState

end OpenFelt
