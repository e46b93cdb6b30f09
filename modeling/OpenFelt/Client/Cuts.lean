/-
  OpenFelt.Client.Cuts — the label of a snapshot.

  The bound connection asks the runtime for the snapshot first and for the stream
  sequence afterwards, and labels the one with the other. Proved, of every order of
  requests (`cut_iff`): the answer is a consistent cut of the stream exactly when
  nothing is accepted between the two.
-/

import OpenFelt.Client.Recovery

namespace OpenFelt

open MultiwayHand (HandStarts)

namespace RuntimeState

open ProtocolAuthority

/-- A broadcast: its number and the revision it shows. -/
structure Broadcast where
  number : Nat
  revision : Nat
  deriving DecidableEq, Repr

/-- The broadcasts of a run. -/
def broadcasts (s : RuntimeState) : List RuntimeOp → List Broadcast
  | [] => []
  | op :: ops =>
    (if (op.apply s).streamSequence = s.streamSequence then [] else
      [⟨(op.apply s).streamSequence, (op.apply s).table.revision⟩]) ++
      (op.apply s).broadcasts ops

/-- What a client shows that adopts `answer` and then applies the updates of its stream in
    order, all but those not newer than the answer. -/
def adopting (answer : SubscriptionUpdate) (updates : List SubscriptionUpdate) : SnapshotEnvelope :=
  (updates.filter fun update => answer.streamSequence < update.streamSequence).foldl
    (fun _ update => update.snapshot) answer.snapshot

/-- The answer reflects every broadcast that its label covers; and whatever follows, a live
    subscription takes it from there to what the authority shows. -/
structure ConsistentCut (start : RuntimeState) (history between : List RuntimeOp) (session : GuestSessionId)
    (answer : SubscriptionUpdate) : Prop where
  reflects : ∀ b ∈ start.broadcasts (history ++ between), b.number ≤ answer.streamSequence → b.revision ≤ answer.snapshot.revision
  follows : ∀ later, (start.run history).Live session (between ++ later) →
    ((start.run history).run (between ++ later)).boundSnapshot session =
      .ok (adopting answer ((start.run history).received session (between ++ later) ++
        ((start.run history).run (between ++ later)).channel session))

section cuts
variable {c : HandConfig} {h : MultiwayHand} {posted : Nat} {s s' s₁ : RuntimeState} {op : RuntimeOp}
  {session : GuestSessionId} {binding : SessionBinding}

theorem run_append (s : RuntimeState) (ops more : List RuntimeOp) : s.run (ops ++ more) = (s.run ops).run more :=
  List.foldl_append

theorem received_append (s : RuntimeState) (session : GuestSessionId) (ops more : List RuntimeOp) :
    s.received session (ops ++ more) = s.received session ops ++ (s.run ops).received session more := by
  induction ops generalizing s with
  | nil => rfl
  | cons op ops ih =>
    show s.takes session op ++ (op.apply s).received session (ops ++ more) = _
    rw [ih, ← List.append_assoc]
    rfl

theorem Live.split {ops more : List RuntimeOp} (hl : s.Live session (ops ++ more)) :
    s.Live session ops ∧ (s.run ops).Live session more := by
  induction ops generalizing s with
  | nil =>
    obtain ⟨subscriber, hsome⟩ := Live.head hl
    exact ⟨by rw [Live, hsome]; rfl, hl⟩
  | cons op ops ih =>
    obtain ⟨hhead, htail⟩ := hl
    obtain ⟨hfirst, hrest⟩ := ih htail
    exact ⟨⟨hhead, hfirst⟩, hrest⟩

theorem broadcasts_append (s : RuntimeState) (ops more : List RuntimeOp) :
    s.broadcasts (ops ++ more) = s.broadcasts ops ++ (s.run ops).broadcasts more := by
  induction ops generalizing s with
  | nil => rfl
  | cons op ops ih =>
    show _ ++ (op.apply s).broadcasts (ops ++ more) = _
    rw [ih, ← List.append_assoc]
    rfl

/-! ## What a request shows a session -/

/-- What a view is made of. -/
theorem view_congr (htable : s'.table.tableId = s.table.tableId) (hhand : s'.table.handId = s.table.handId)
    (hrevision : s'.table.revision = s.table.revision) (hsame : s'.table.hand = s.table.hand) (audience : ProjectionAudience) :
    s'.view audience = s.view audience := by
  unfold RuntimeState.view ProtocolAuthority.snapshot
  rw [htable, hhand, hrevision, hsame]

/-- A request accepts nothing, and every bound session is shown what it was shown before;
    or it accepts one event at the next revision and broadcasts it. -/
inductive Shows (s : RuntimeState) (s' : RuntimeState) : Prop
  | same : s'.acceptedEvents = s.acceptedEvents → s'.table.revision = s.table.revision → s.streamSequence ≤ s'.streamSequence →
      (∀ session binding, s.sessions.find? session = some binding → s'.boundSnapshot session = s.boundSnapshot session) →
      Shows s s'
  | accepted (event : EventEnvelope) : s'.acceptedEvents = s.acceptedEvents ++ [event] →
      s'.table.revision = s.table.revision + 1 → s'.streamSequence = s.streamSequence + 1 → Shows s s'

/-- A bound session keeps its role. -/
theorem Performs.role (hp : Performs s op s') (hs : Serves c posted s) (hf : s.sessions.find? session = some binding) :
    ∃ connected, s'.sessions.find? session = some ⟨binding.role, connected⟩ := by
  have hkept : ∃ connected, s.sessions.find? session = some ⟨binding.role, connected⟩ := ⟨_, hf⟩
  cases hp with
  | @announced _ reason event s₁ ha =>
    obtain ⟨subscribers, he, _⟩ := broadcast_told (ha.serves hs).toBound reason event
    rw [he]
    cases ha with
    | acted | timedOut | advanced =>
      simp only [rearmed_sessions]
      exact hkept
    | preferred | warned => exact hkept
    | left other role hother | returned other role hother =>
      dsimp only
      rw [OrdMap.find_insert]
      split
      · rename_i he
        subst he
        obtain rfl := Option.some.inj (hf.symm.trans hother)
        exact ⟨_, rfl⟩
      · exact hkept
  | bound other tableId handId role hnew =>
    dsimp only
    rw [OrdMap.find_insert]
    split
    · rename_i he
      subst he
      rw [hnew] at hf
      cases hf
    · exact hkept
  | unchanged | refused | ticked | paced | subscribed | received | hungUp => exact hkept

theorem Performs.shows (hp : Performs s op s') (hs : Serves c posted s) : Shows s s' := by
  have hview : ∀ k : RuntimeState, k.table = s.table → ∀ audience, k.view audience = s.view audience :=
    fun k hk audience => view_congr (by rw [hk]) (by rw [hk]) (by rw [hk]) (by rw [hk]) audience
  have hsame : ∀ k : RuntimeState, k.sessions = s.sessions → (∀ audience, k.view audience = s.view audience) →
      ∀ session binding, s.sessions.find? session = some binding → k.boundSnapshot session = s.boundSnapshot session := by
    intro k hsessions hk session binding hf
    rw [boundSnapshot, boundSnapshot, hsessions, hf]
    exact hk _
  have hrole := fun session binding hf => @Performs.role _ _ _ _ _ session binding hp hs hf
  cases hp with
  | @announced _ reason event s₁ ha =>
    obtain ⟨hsequence, hevents, _⟩ := ha.before
    obtain ⟨subscribers, he, _⟩ := broadcast_told (ha.serves hs).toBound reason event
    rw [he] at hrole ⊢
    have hquiet : event = none → s₁.table = s.table →
        Shows s { s₁ with streamSequence := s₁.streamSequence + 1, subscribers := subscribers } := by
      rintro rfl htable
      refine .same (by rw [hevents]; exact List.append_nil _) (by rw [htable]) (by rw [hsequence]; exact Nat.le_succ _) ?_
      intro session binding hf
      obtain ⟨connected, hf'⟩ := hrole session binding hf
      rw [boundSnapshot, boundSnapshot, hf', hf]
      exact hview _ htable _
    cases ha with
    | acted _ command _ _ _ _ => exact .accepted _ hevents (by simp [recording, accepting, record]) (by rw [hsequence])
    | preferred _ command _ _ _ _ => exact .accepted _ hevents rfl (by rw [hsequence])
    | timedOut _ _ _ _ _ _ _ _ => exact .accepted _ hevents (by simp [recording, accepting, record]) (by rw [hsequence])
    | advanced now event table hadv =>
      refine .accepted event hevents ?_ (by rw [hsequence])
      simp only [rearmed_table]
      unfold ProtocolAuthority.advanceShowdown at hadv
      split at hadv
      · cases hadv
      · cases hadv
        rfl
    | warned | left | returned => exact hquiet rfl rfl
  | bound other tableId handId role hnew =>
    refine .same rfl rfl (Nat.le_refl _) fun session binding hf => ?_
    obtain ⟨connected, hf'⟩ := hrole session binding hf
    rw [boundSnapshot, boundSnapshot, hf', hf]
    rfl
  | refused _ command entry _ _ =>
    exact .same rfl rfl (Nat.le_refl _) (hsame _ rfl fun audience => view_congr rfl rfl rfl rfl audience)
  | unchanged | ticked | paced | subscribed | received | hungUp =>
    exact .same rfl rfl (Nat.le_refl _) (hsame _ rfl fun _ => rfl)

theorem Shows.monotone (hs : Shows s s') : s.table.revision ≤ s'.table.revision ∧ s.streamSequence ≤ s'.streamSequence ∧
    ∃ events, s'.acceptedEvents = s.acceptedEvents ++ events := by
  cases hs with
  | same hevents hrevision hle _ => exact ⟨Nat.le_of_eq hrevision.symm, hle, [], by rw [hevents, List.append_nil]⟩
  | accepted event hevents hrevision hsequence =>
    exact ⟨by rw [hrevision]; exact Nat.le_succ _, by rw [hsequence]; exact Nat.le_succ _, [event], hevents⟩

/-! ## What a run shows a session -/

theorem Serves.run_monotone (hs : Serves c posted s) (ops : List RuntimeOp) : s.table.revision ≤ (s.run ops).table.revision ∧
    s.streamSequence ≤ (s.run ops).streamSequence ∧ ∃ events, (s.run ops).acceptedEvents = s.acceptedEvents ++ events := by
  induction ops generalizing s with
  | nil => exact ⟨Nat.le_refl _, Nat.le_refl _, [], (List.append_nil _).symm⟩
  | cons op ops ih =>
    obtain ⟨hrevision, hsequence, first, hfirst⟩ := ((hs.performs op).shows hs).monotone
    obtain ⟨hrevision', hsequence', rest, hrest⟩ := ih ((hs.apply op).serves hs)
    exact ⟨Nat.le_trans hrevision hrevision', Nat.le_trans hsequence hsequence', first ++ rest,
      by rw [← List.append_assoc, ← hfirst]; exact hrest⟩

/-- A run that accepts nothing shows every bound session what it was shown before. -/
theorem Serves.run_same (hs : Serves c posted s) (ops : List RuntimeOp) (hquiet : (s.run ops).acceptedEvents = s.acceptedEvents)
    (hf : s.sessions.find? session = some binding) :
    (s.run ops).table.revision = s.table.revision ∧ (s.run ops).boundSnapshot session = s.boundSnapshot session := by
  induction ops generalizing s binding with
  | nil => exact ⟨rfl, rfl⟩
  | cons op ops ih =>
    have hnext := (hs.apply op).serves hs
    have hp := hs.performs op
    obtain ⟨_, _, rest, hrest⟩ := hnext.run_monotone ops
    have hall : (s.run (op :: ops)).acceptedEvents = (op.apply s).acceptedEvents ++ rest := hrest
    obtain ⟨connected, hf'⟩ := hp.role hs hf
    cases hp.shows hs with
    | same hevents hrevision _ hsame =>
      obtain ⟨hrevision', hshown⟩ := ih hnext (by rw [hevents, ← hquiet]; rfl) hf'
      exact ⟨hrevision'.trans hrevision, hshown.trans (hsame session binding hf)⟩
    | accepted event hevents _ _ =>
      rw [hquiet, hevents, List.append_assoc] at hall
      have := congrArg List.length hall
      simp at this

/-- Every broadcast of a run shows a revision between those of its ends. -/
theorem Serves.broadcasts_bound (hs : Serves c posted s) (ops : List RuntimeOp) : ∀ b ∈ s.broadcasts ops,
    b.number ≤ (s.run ops).streamSequence ∧ b.revision ≤ (s.run ops).table.revision := by
  induction ops generalizing s with
  | nil => exact fun b hb => absurd hb List.not_mem_nil
  | cons op ops ih =>
    have hnext := (hs.apply op).serves hs
    obtain ⟨hrevision, hsequence, _⟩ := hnext.run_monotone ops
    intro b hb
    rcases List.mem_append.mp hb with hb | hb
    · split at hb
      · exact absurd hb List.not_mem_nil
      · rw [List.mem_singleton.mp hb]
        exact ⟨hsequence, hrevision⟩
    · exact ih hnext b hb

/-- A run that accepts something broadcasts a newer revision. -/
theorem Serves.broadcasts_newer (hs : Serves c posted s) (ops : List RuntimeOp)
    (hloud : (s.run ops).acceptedEvents ≠ s.acceptedEvents) : ∃ b ∈ s.broadcasts ops, s.table.revision < b.revision := by
  induction ops generalizing s with
  | nil => exact absurd rfl hloud
  | cons op ops ih =>
    have hnext := (hs.apply op).serves hs
    cases (hs.performs op).shows hs with
    | same hevents hrevision _ _ =>
      obtain ⟨b, hb, hlt⟩ := ih hnext (by rw [hevents]; exact hloud)
      exact ⟨b, List.mem_append_right _ hb, hrevision ▸ hlt⟩
    | accepted event hevents hrevision hsequence =>
      refine ⟨⟨(op.apply s).streamSequence, (op.apply s).table.revision⟩, List.mem_append_left _ ?_, ?_⟩
      · rw [if_neg (by omega)]
        exact List.mem_singleton_self _
      · show s.table.revision < (op.apply s).table.revision
        omega

/-- What is in the channels has been broadcast, or was the first of a subscription. -/
def Numbered (s : RuntimeState) : Prop :=
  ∀ session subscriber, s.subscribers.find? session = some subscriber → ∀ update ∈ subscriber.updates,
    update.streamSequence ≤ s.streamSequence

theorem Performs.numbered (hp : Performs s op s') (hs : Serves c posted s) (hn : s.Numbered) : s'.Numbered := by
  cases hp with
  | @announced _ reason event s₁ ha =>
    have hrelay := (Performs.announced ha).relays hs
    obtain ⟨hsequence, _, _⟩ := ha.before
    obtain ⟨subscribers, he, _⟩ := broadcast_told (ha.serves hs).toBound reason event
    rw [he] at hrelay ⊢
    intro session subscriber hsome update hu
    cases hrelay with
    | silent hsame _ _ => exact absurd hsame (by rw [hsequence]; exact Nat.succ_ne_self _)
    | broadcast reason event hnext _ hnone hdeliver =>
      cases hold : s.subscribers.find? session with
      | none => rw [hnone session hold] at hsome; cases hsome
      | some old =>
        have hd := hdeliver session old hold
        rw [hsome] at hd
        cases hd with
        | sent binding snapshot _ _ _ _ _ =>
          rcases List.mem_append.mp hu with hu | hu
          · have := hn session old hold update hu
            rw [hnext]
            omega
          · rw [List.mem_singleton.mp hu]
  | subscribed session binding snapshot _ _ _ =>
    intro other subscriber hsome update hu
    rw [OrdMap.find_insert] at hsome
    split at hsome
    · cases hsome
      rw [List.mem_singleton.mp hu]
    · exact hn other subscriber hsome update hu
  | received session =>
    intro other subscriber hsome update hu
    simp only [RuntimeOp.apply, OrdMap.find_modify] at hsome
    split at hsome
    · obtain ⟨old, hold, rfl⟩ := Option.map_eq_some_iff.mp hsome
      exact hn other old hold update (List.mem_of_mem_tail hu)
    · exact hn other subscriber hsome update hu
  | hungUp session =>
    intro other subscriber hsome update hu
    simp only [RuntimeOp.apply, OrdMap.find_modify] at hsome
    split at hsome
    · obtain ⟨old, hold, rfl⟩ := Option.map_eq_some_iff.mp hsome
      exact hn other old hold update hu
    · exact hn other subscriber hsome update hu
  | unchanged | bound | refused | ticked | paced => exact hn

theorem Serves.run_numbered (hs : Serves c posted s) (hn : s.Numbered) (ops : List RuntimeOp) : (s.run ops).Numbered := by
  induction ops generalizing s with
  | nil => exact hn
  | cons op ops ih => exact ih ((hs.apply op).serves hs) ((hs.performs op).numbered hs hn)

/-- What a live subscription is sent during a run takes it to what the authority shows. -/
theorem Serves.run_follows (hs : Serves c posted s) (ops : List RuntimeOp) (hl : s.Live session ops)
    (hf : s.sessions.find? session = some binding) {shown : SnapshotEnvelope} (hshown : s.boundSnapshot session = .ok shown) :
    ∃ updates, s.received session ops ++ (s.run ops).channel session = s.channel session ++ updates ∧ Puts s (s.run ops) updates ∧
      (s.run ops).boundSnapshot session = .ok (updates.foldl (fun _ update => update.snapshot) shown) := by
  induction ops generalizing s binding shown with
  | nil => exact ⟨[], (List.append_nil _).symm, .none rfl rfl, hshown⟩
  | cons op ops ih =>
    obtain ⟨subscriber, hsome⟩ := hl.head
    obtain ⟨subscriber', hsome'⟩ := hl.2.head
    have hp := hs.performs op
    have hnext := (hs.apply op).serves hs
    obtain ⟨first, he, hfirst, hview⟩ := hs.puts op hsome (by rw [hsome']; rfl)
    obtain ⟨connected, hf'⟩ := hp.role hs hf
    have hstep : (op.apply s).boundSnapshot session = .ok (first.foldl (fun _ update => update.snapshot) shown) := by
      rcases List.eq_nil_or_concat first with rfl | ⟨before, last, rfl⟩
      · have hquiet : (op.apply s).acceptedEvents = s.acceptedEvents := by rw [hfirst.events]; exact List.append_nil _
        cases hp.shows hs with
        | same _ _ _ hsame => exact (hsame session binding hf).trans hshown
        | accepted event hevents _ _ =>
          rw [hquiet] at hevents
          have := congrArg List.length hevents
          simp at this
      · rw [List.concat_eq_append, List.foldl_append]
        exact hview last (by simp)
    obtain ⟨rest, he', hrest, hlast⟩ := ih hnext hl.2 hf' hstep
    obtain ⟨hle, _, _⟩ := (hp.shows hs).monotone
    obtain ⟨hle', _, _⟩ := hnext.run_monotone ops
    refine ⟨first ++ rest, ?_, hfirst.append hrest hle hle', by rw [List.foldl_append]; exact hlast⟩
    show s.takes session op ++ (op.apply s).received session ops ++ ((op.apply s).run ops).channel session = _
    rw [List.append_assoc, he', ← List.append_assoc, he, List.append_assoc]

/-! ## The cut -/

theorem Puts.newer {updates : List SubscriptionUpdate} (hp : Puts s s' updates) : ∀ update ∈ updates,
    s.streamSequence < update.streamSequence ∧ update.streamSequence ≤ s'.streamSequence := by
  intro update hu
  have hmem : update.streamSequence ∈ List.range' (s.streamSequence + 1) updates.length := by
    rw [← hp.numbered]
    exact List.mem_map_of_mem hu
  have hrange := List.mem_range'_1.mp hmem
  have hlast := hp.last
  omega

/-- Of a stream in two parts, a client that adopts an answer numbered between them applies
    the second. -/
theorem adopting_append {answer : SubscriptionUpdate} {old new : List SubscriptionUpdate}
    (hold : ∀ update ∈ old, update.streamSequence ≤ answer.streamSequence)
    (hnew : ∀ update ∈ new, answer.streamSequence < update.streamSequence) :
    adopting answer (old ++ new) = new.foldl (fun _ update => update.snapshot) answer.snapshot := by
  have hnone : old.filter (fun update => decide (answer.streamSequence < update.streamSequence)) = [] := by
    rw [List.filter_eq_nil_iff]
    intro update hu
    have := hold update hu
    simp only [decide_eq_true_eq]
    omega
  have hall : new.filter (fun update => decide (answer.streamSequence < update.streamSequence)) = new := by
    rw [List.filter_eq_self]
    intro update hu
    exact decide_eq_true (hnew update hu)
  rw [adopting, List.filter_append, hnone, hall, List.nil_append]

theorem Serves.cut_fails {start : RuntimeState} (hs : Serves c posted start) (history between : List RuntimeOp)
    {snapshot : SnapshotEnvelope} (hasked : (start.run history).snapshot session = .ok snapshot)
    (hloud : (start.run (history ++ between)).acceptedEvents ≠ (start.run history).acceptedEvents) :
    ¬ ConsistentCut start history between session (snapshotAnswer snapshot (start.run (history ++ between)).streamSequence) := by
  intro hcut
  have hserves := hs.run history
  obtain ⟨b, hb, hnewer⟩ := hserves.broadcasts_newer between (by rw [← run_append]; exact hloud)
  have hall : b ∈ start.broadcasts (history ++ between) := by
    rw [broadcasts_append]
    exact List.mem_append_right _ hb
  have hreflects := hcut.reflects b hall ((hs.broadcasts_bound _ b hall).1)
  have hrevision : snapshot.revision = (start.run history).table.revision := by
    unfold RuntimeState.snapshot at hasked
    split at hasked
    · cases hasked
    · exact view_revision hasked
  have : b.revision ≤ snapshot.revision := hreflects
  omega

/-- The answer to a `SnapshotRequest` is a consistent cut of the stream exactly when no
    action, preference, timeout or showdown step is accepted between the two requests it is
    made of. -/
theorem cut_iff (hstarts : HandStarts c h) (tableId : TableId) (handId : HandId) (history between : List RuntimeOp)
    (session : GuestSessionId) (snapshot : SnapshotEnvelope)
    (hasked : ((spawn (.new tableId handId h)).run history).snapshot session = .ok snapshot) :
    ConsistentCut (spawn (.new tableId handId h)) history between session
        (snapshotAnswer snapshot ((spawn (.new tableId handId h)).run (history ++ between)).streamSequence) ↔
      ((spawn (.new tableId handId h)).run (history ++ between)).acceptedEvents =
        ((spawn (.new tableId handId h)).run history).acceptedEvents := by
  have hspawn := (@spawn_serves c h tableId handId hstarts).1
  have hempty : (spawn (.new tableId handId h)).Numbered := by
    intro session subscriber hsome
    have hnone : (spawn (.new tableId handId h)).subscribers = .empty := by
      unfold spawn
      dsimp only
      rw [rescheduleDeadline_eq]
      simp only [rearmed_subscribers]
    rw [hnone] at hsome
    cases hsome
  generalize spawn (.new tableId handId h) = start at hspawn hempty hasked ⊢
  constructor
  · intro hcut
    by_contra hloud
    exact hspawn.cut_fails history between hasked hloud hcut
  · intro hquiet
    have hserves := hspawn.run history
    obtain ⟨binding, hf, hshown⟩ : ∃ binding, (start.run history).sessions.find? session = some binding ∧
        (start.run history).boundSnapshot session = .ok snapshot := by
      unfold RuntimeState.snapshot at hasked
      cases hb : (start.run history).connectedBinding session with
      | error error => rw [hb] at hasked; cases hasked
      | ok binding =>
        rw [hb] at hasked
        obtain ⟨hf, _⟩ := connectedBinding_ok hb
        exact ⟨binding, hf, by rw [boundSnapshot, hf]; exact hasked⟩
    rw [run_append] at hquiet ⊢
    obtain ⟨hrevision, hsame⟩ := hserves.run_same between hquiet hf
    refine ⟨?_, ?_⟩
    · intro b hb _
      have hle := (hspawn.broadcasts_bound _ b hb).2
      rw [run_append, hrevision] at hle
      have hsnapshot : snapshot.revision = (start.run history).table.revision := by
        rw [boundSnapshot, hf] at hshown
        exact view_revision hshown
      exact Nat.le_trans hle (Nat.le_of_eq hsnapshot.symm)
    · intro later hl
      obtain ⟨hfirst, hrest⟩ := hl.split
      obtain ⟨subscriber, hsome⟩ := hfirst.head
      obtain ⟨old, hold, hputs, _⟩ := hserves.run_puts between hfirst
      have hnext := hserves.run between
      obtain ⟨connected, hf'⟩ : ∃ binding, ((start.run history).run between).sessions.find? session = some binding := by
        have hbound : ((start.run history).run between).boundSnapshot session = .ok snapshot := hsame.trans hshown
        unfold boundSnapshot at hbound
        split at hbound
        · cases hbound
        · exact ⟨_, ‹_›⟩
      obtain ⟨new, hnew, hputs', hlast⟩ := hnext.run_follows later hrest hf' (hsame.trans hshown)
      rw [run_append, hlast, received_append, List.append_assoc, hnew, ← List.append_assoc, hold]
      refine congrArg Except.ok (Eq.symm ?_)
      refine adopting_append ?_ fun update hu => (hputs'.newer update hu).1
      intro update hu
      rcases List.mem_append.mp hu with hu | hu
      · have hnumbered := hspawn.run_numbered hempty history session subscriber hsome update (by
          rwa [channel, hsome] at hu)
        have hle := (hserves.run_monotone between).2.1
        exact Nat.le_trans hnumbered hle
      · exact (hputs.newer update hu).2

/-- The client of seat 2 asks for a snapshot. -/
def snapshotRequest : List RuntimeOp := [.bind ⟨"guest"⟩ ⟨1⟩ ⟨1⟩ (.player 2), .subscribe ⟨"guest"⟩]

theorem snapshotRequest_answered : ∃ h, HandStarts threeHanded h ∧ ∃ snapshot,
    ((spawn (.new ⟨1⟩ ⟨1⟩ h)).run snapshotRequest).snapshot ⟨"guest"⟩ = .ok snapshot ∧
      ((spawn (.new ⟨1⟩ ⟨1⟩ h)).run (snapshotRequest ++ [.advanceTime actionTimeoutTicks])).acceptedEvents ≠
        ((spawn (.new ⟨1⟩ ⟨1⟩ h)).run snapshotRequest).acceptedEvents := by
  have hrun : (threeHanded.build.toOption.map fun h =>
      let start := spawn (.new ⟨1⟩ ⟨1⟩ { h with pacedShowdown := false })
      (((start.run snapshotRequest).snapshot ⟨"guest"⟩).toOption.isSome,
        decide ((start.run (snapshotRequest ++ [.advanceTime actionTimeoutTicks])).acceptedEvents ≠
          (start.run snapshotRequest).acceptedEvents))) = some (true, true) := by
    decide +kernel
  cases h : threeHanded.build with
  | error e => rw [h] at hrun; cases hrun
  | ok start =>
    rw [h] at hrun
    obtain ⟨hasked, hloud⟩ := Prod.mk.inj (Option.some.inj hrun)
    refine ⟨{ start with pacedShowdown := false }, ⟨⟨.refl _, rfl⟩, start, false, h, rfl⟩, ?_⟩
    cases hsnapshot : ((spawn (.new ⟨1⟩ ⟨1⟩ { start with pacedShowdown := false })).run snapshotRequest).snapshot ⟨"guest"⟩ with
    | error e => rw [hsnapshot] at hasked; cases hasked
    | ok snapshot => exact ⟨snapshot, rfl, of_decide_eq_true hloud⟩

theorem cut_iff_three : ∃ h snapshot, HandStarts threeHanded h ∧
    (ConsistentCut (spawn (.new ⟨1⟩ ⟨1⟩ h)) snapshotRequest [.advanceTime 10] ⟨"guest"⟩
        (snapshotAnswer snapshot ((spawn (.new ⟨1⟩ ⟨1⟩ h)).run (snapshotRequest ++ [.advanceTime 10])).streamSequence) ↔
      ((spawn (.new ⟨1⟩ ⟨1⟩ h)).run (snapshotRequest ++ [.advanceTime 10])).acceptedEvents =
        ((spawn (.new ⟨1⟩ ⟨1⟩ h)).run snapshotRequest).acceptedEvents) := by
  obtain ⟨h, hstarts, snapshot, hasked, _⟩ := snapshotRequest_answered
  exact ⟨h, snapshot, hstarts, cut_iff hstarts ⟨1⟩ ⟨1⟩ snapshotRequest [.advanceTime 10] ⟨"guest"⟩ snapshot hasked⟩

/-- A deadline that runs out between the two requests makes the label newer than the
    snapshot. -/
theorem timeout_between_tears : ∃ h, HandStarts threeHanded h ∧ ∃ snapshot,
    ((spawn (.new ⟨1⟩ ⟨1⟩ h)).run snapshotRequest).snapshot ⟨"guest"⟩ = .ok snapshot ∧
      ¬ ConsistentCut (spawn (.new ⟨1⟩ ⟨1⟩ h)) snapshotRequest [.advanceTime actionTimeoutTicks] ⟨"guest"⟩
        (snapshotAnswer snapshot
          ((spawn (.new ⟨1⟩ ⟨1⟩ h)).run (snapshotRequest ++ [.advanceTime actionTimeoutTicks])).streamSequence) := by
  obtain ⟨h, hstarts, snapshot, hasked, hloud⟩ := snapshotRequest_answered
  exact ⟨h, hstarts, snapshot, hasked, (@spawn_serves _ h ⟨1⟩ ⟨1⟩ hstarts).1.cut_fails snapshotRequest _ hasked hloud⟩

end cuts

end RuntimeState

end OpenFelt
