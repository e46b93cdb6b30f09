/-
  OpenFelt.Client.Interleaved — any number of clients at one table.

  Every connection keeps what holds between its client and the runtime (`Sound`), in
  whatever order the clients send, their loops read and write, the clock runs and the
  showdown steps. Proved of every such run: when no command is overtaken, every message
  is accepted (`run_accepts`).
-/

import OpenFelt.Client.Overtaken

namespace OpenFelt

open MultiwayHand (HandStarts)

namespace RuntimeState

open ProtocolAuthority

/-- What the loop of a session can still read. -/
def box (s : RuntimeState) (session : GuestSessionId) (connection : Connection) : List SubscriptionUpdate :=
  if s.subscribers.contains session then s.channel session else connection.buffered

/-- What holds between a runtime and the connection of a session. -/
def Speaks (s : RuntimeState) (session : GuestSessionId) (connection : Connection) : Prop :=
  ∃ binding, s.sessions.find? session = some binding ∧
    Talks s binding.role.audience (s.subscribers.contains session) connection.app connection.requests connection.replies
      (s.box session connection)

section speaks
variable {c : HandConfig} {posted : Nat} {s s' : RuntimeState} {op : RuntimeOp} {session : GuestSessionId}
  {connection : Connection} {command : CommandEnvelope}

/-- The runtime serves a request, and a connection keeps what it can read. -/
theorem Speaks.asked (ht : s.Speaks session connection) (hs : Serves c posted s) (hp : Performs s op s')
    (hsubscribe : op ≠ .subscribe session) (hreceive : op ≠ .receive session) (hhang : op ≠ .hangUp session) :
    s'.Speaks session (if s.subscribers.contains session && !s'.subscribers.contains session then
      { connection with buffered := s.channel session } else connection) := by
  obtain ⟨binding, hf, ht⟩ := ht
  obtain ⟨connected, hf'⟩ := hp.role hs hf
  have hsame := hp.sameHand hs
  refine ⟨_, hf', ?_⟩
  cases hp.leaves hs hf hsubscribe hreceive hhang with
  | same hin hchannel hsequence =>
    rw [if_neg (by rw [hin]; simp)]
    have hbox : s'.box session connection = s.box session connection := by rw [box, box, hin, hchannel]
    rw [hin, hbox]
    exact ht.quiet hsame (hp.shows hs).monotone.2.1 fun hlive => ⟨hlive, hsequence hlive⟩
  | more update hin hin' hchannel hnews =>
    rw [if_neg (by rw [hin']; simp)]
    have hbox : s'.box session connection = s.box session connection ++ [update] := by
      rw [box, box, hin, hin', if_pos rfl, if_pos rfl, hchannel]
    rw [hin', hbox]
    rw [hin] at ht
    exact ht.told hsame hnews
  | ended hin hgone =>
    rw [if_pos (by rw [hin, hgone]; rfl), hgone]
    have hbox : s'.box session { connection with buffered := s.channel session } = s.box session connection := by
      rw [box, box, hin, hgone, if_pos rfl, if_neg Bool.false_ne_true]
    rw [hbox]
    exact ht.quiet hsame (hp.shows hs).monotone.2.1 fun hlive => by cases hlive

/-- A response is under the id of its command and shows what the runtime has come to. -/
theorem Serves.responds (hs : Serves c posted s) (hk : s.Keyed) (hvalid : validCommandId command.commandId = true)
    {response : AuthorizedTableResponse} (h : s.submit session command = (.ok response, s')) :
    response.receipt.acknowledgement.commandId = some command.commandId ∧
      Shown s'.table (.player command.payload.seat) response.snapshot ∧ response.streamSequence = s'.streamSequence := by
  have hsubmits := hs.submits session command
  rw [h] at hsubmits
  generalize hanswer : (Except.ok response, s') = answer at hsubmits
  cases hsubmits with
  | failed error => cases hanswer
  | answered receipt snapshot table hreceipt _ _ hview =>
    cases hanswer
    exact ⟨by rw [hreceipt]; exact hk.answers hvalid false, view_shown hview, rfl⟩
  | accepted snapshot s₁ _ ha hview =>
    obtain ⟨subscribers, he, _⟩ := broadcast_told (ha.serves hs).toBound .actionAccepted (some (s.table.eventOf command))
    rw [he] at hanswer
    cases hanswer
    exact ⟨rfl, view_shown hview, rfl⟩

/-- A client bootstrapped from the first update of its subscription agrees with the runtime. -/
theorem subscribe_speaks (h : s.subscribe session = (.ok (), s')) {client : ProjectionClient}
    {others : List (Except ProjectionClientError ProjectionClient)}
    (hboot : (s'.channel session).map ProjectionClient.bootstrapFromUpdate = .ok client :: others) (nonce : Nat) :
    ((RuntimeOp.receive session).apply s').Speaks session ⟨.new client nonce, [], [], []⟩ := by
  obtain ⟨binding, snapshot, hbinding, hview, rfl⟩ := subscribe_ok h
  have hshown := view_shown hview
  rw [channel, OrdMap.find_insert_self] at hboot
  have hclient := (List.cons.inj hboot).1
  unfold ProjectionClient.bootstrapFromUpdate ProjectionClient.bootstrap validateVersion at hclient
  rw [if_neg (not_not_intro hshown.version)] at hclient
  cases hclient
  have hleft : ∀ k : RuntimeState, k.subscribers.find? session =
      some ⟨[⟨s.streamSequence, .initial, none, snapshot, s.deadline⟩], true⟩ →
      ((RuntimeOp.receive session).apply k).subscribers.find? session = some ⟨[], true⟩ := by
    intro k hk
    simp only [RuntimeOp.apply, OrdMap.find_modify, if_true, hk]
    rfl
  have hnone := hleft { s with
    subscribers := s.subscribers.insert session ⟨[⟨s.streamSequence, .initial, none, snapshot, s.deadline⟩], true⟩ }
    OrdMap.find_insert_self
  refine ⟨binding, (connectedBinding_ok hbinding).1, ?_⟩
  rw [OrdMap.contains, box, OrdMap.contains, channel, hnone]
  refine ⟨⟨nonce, rfl⟩, fun _ hm => absurd hm List.not_mem_nil, .nothing, hshown, fun _ hu => absurd hu List.not_mem_nil, ?_,
    List.Pairwise.nil, fun _ hu => absurd hu List.not_mem_nil, fun _ hr => absurd hr List.not_mem_nil⟩
  exact ⟨s.streamSequence + 1, Nat.le_refl _, rfl, Nat.le_refl _, fun _ => rfl⟩

end speaks

end RuntimeState

open RuntimeState (Serves Speaks Performs)

namespace ProjectionClient

theorem prepareAction_error {client client' : ProjectionClient} {id : String} {action : Action} {error : ProjectionClientError}
    (h : client.prepareAction id action = (.error error, client')) : client' = client := by
  unfold ProjectionClient.prepareAction at h
  split at h
  · cases h; rfl
  · cases h; rfl
  split at h
  · cases h; rfl
  split at h
  · cases h; rfl
  split at h
  · cases h; rfl
  split at h
  · cases h; rfl
  split at h
  · cases h; rfl
  · cases h

theorem prepareShowdownPreference_error {client client' : ProjectionClient} {id : String} {alwaysShow : Bool}
    {error : ProjectionClientError} (h : client.prepareShowdownPreference id alwaysShow = (.error error, client')) :
    client' = client := by
  unfold ProjectionClient.prepareShowdownPreference at h
  split at h
  · cases h; rfl
  split at h
  · cases h; rfl
  split at h
  · cases h; rfl
  · cases h

end ProjectionClient

namespace Net

/-- A message delivered makes its client forget a command that is not answered yet. -/
def overtakes (net : Net) : NetStep → Bool
  | .deliver session =>
    (net.connections.find? session).any fun connection =>
      overtaking connection.app.client connection.requests connection.replies
  | _ => false

/-- A command is overtaken in the run. -/
def overtaken (net : Net) : List NetStep → Bool
  | [] => false
  | step :: steps => net.overtakes step || (net.step step).overtaken steps

/-- The errors that clients report in a run. -/
def failures (net : Net) : List NetStep → List ProjectionClientError
  | [] => []
  | step :: steps => (net.failure step).toList ++ (net.step step).failures steps

/-- The table serves its hand, and every client agrees with it. -/
structure Sound (c : HandConfig) (posted : Nat) (net : Net) : Prop where
  serves : Serves c posted net.runtime
  keyed : net.runtime.Keyed
  speaks : ∀ session connection, net.connections.find? session = some connection → net.runtime.Speaks session connection

section sound
variable {c : HandConfig} {h : MultiwayHand} {posted : Nat} {net : Net} {session : GuestSessionId} {connection : Connection}

theorem Sound.asked (hg : Sound c posted net) (op : RuntimeOp)
    (hother : ∀ session, op.session = some session → net.connections.contains session = true →
      op ≠ .subscribe session ∧ op ≠ .receive session ∧ op ≠ .hangUp session) :
      Sound c posted (net.asked (op.apply net.runtime)) := by
  have hp := hg.serves.performs op
  refine ⟨(hg.serves.apply op).serves hg.serves, hp.keyed hg.serves hg.keyed, ?_⟩
  intro session connection hfound
  rw [Net.asked, OrdMap.find_mapVal] at hfound
  obtain ⟨before, hbefore, rfl⟩ := Option.map_eq_some_iff.mp hfound
  have hin : net.connections.contains session = true := OrdMap.contains_iff.mpr ⟨before, hbefore⟩
  refine (hg.speaks session before hbefore).asked hg.serves hp ?_ ?_ ?_
  · rintro rfl; exact (hother session rfl hin).1 rfl
  · rintro rfl; exact (hother session rfl hin).2.1 rfl
  · rintro rfl; exact (hother session rfl hin).2.2 rfl

theorem Sound.put (hg : Sound c posted net) (ht : net.runtime.Speaks session connection) :
    Sound c posted (net.put session connection) := by
  refine ⟨hg.serves, hg.keyed, ?_⟩
  intro other found hfound
  rw [Net.put, OrdMap.find_insert] at hfound
  split at hfound
  · rename_i he
    subst he
    cases hfound
    exact ht
  · exact hg.speaks other found hfound

/-- The loop writes the next update it holds. -/
theorem Sound.forward (hg : Sound c posted net) (hfound : net.connections.find? session = some connection) :
    Sound c posted (net.forward session connection) := by
  obtain ⟨binding, hf, ht⟩ := hg.speaks session connection hfound
  unfold Net.forward
  by_cases hin : net.runtime.subscribers.contains session = true
  · rw [if_pos hin]
    rw [hin, show net.runtime.box session connection = net.runtime.channel session by rw [RuntimeState.box, if_pos hin]] at ht
    obtain ⟨subscriber, hsome⟩ := OrdMap.contains_iff.mp hin
    cases hchannel : net.runtime.channel session with
    | nil => exact hg
    | cons update rest =>
      dsimp only
      have hother : ∀ other, other ≠ session →
          ((RuntimeOp.receive session).apply net.runtime).subscribers.find? other = net.runtime.subscribers.find? other := by
        intro other hne
        simp only [RuntimeOp.apply, OrdMap.find_modify]
        rw [if_neg hne]
      have hself : ((RuntimeOp.receive session).apply net.runtime).subscribers.find? session =
          some { subscriber with updates := subscriber.updates.tail } := by
        simp only [RuntimeOp.apply, OrdMap.find_modify, if_true, hsome]
        rfl
      have hleft : ((RuntimeOp.receive session).apply net.runtime).channel session = rest := by
        rw [RuntimeState.channel, hsome] at hchannel
        rw [RuntimeState.channel, hself]
        exact congrArg List.tail hchannel
      refine ⟨(hg.serves.apply (.receive session)).serves hg.serves, hg.keyed, ?_⟩
      intro other found hfound'
      simp only [Net.put, OrdMap.find_insert] at hfound'
      split at hfound'
      · rename_i he
        subst he
        cases hfound'
        refine ⟨binding, hf, ?_⟩
        have hin' : ((RuntimeOp.receive other).apply net.runtime).subscribers.contains other = true := by
          rw [OrdMap.contains, hself]; rfl
        dsimp only [Net.put]
        rw [hin', RuntimeState.box, if_pos hin', hleft]
        rw [hchannel] at ht
        refine ht.forward.quiet ?_ ?_ ?_
        · exact ⟨rfl, rfl, Nat.le_refl _⟩
        · exact Nat.le_refl _
        · exact fun hlive => ⟨hlive, rfl⟩
      · rename_i hne
        obtain ⟨binding', hf', ht'⟩ := hg.speaks other found hfound'
        refine ⟨binding', hf', ?_⟩
        have hsame : ((RuntimeOp.receive session).apply net.runtime).subscribers.contains other =
            net.runtime.subscribers.contains other := by rw [OrdMap.contains, OrdMap.contains, hother other hne]
        have hbox : ((RuntimeOp.receive session).apply net.runtime).box other found = net.runtime.box other found := by
          rw [RuntimeState.box, RuntimeState.box, hsame, RuntimeState.channel, RuntimeState.channel, hother other hne]
        dsimp only [Net.put]
        rw [hsame, hbox]
        refine ht'.quiet ?_ ?_ ?_
        · exact ⟨rfl, rfl, Nat.le_refl _⟩
        · exact Nat.le_refl _
        · exact fun hlive => ⟨hlive, rfl⟩
  · rw [if_neg hin]
    rw [RuntimeState.box, if_neg hin] at ht
    cases hbuffered : connection.buffered with
    | nil => exact hg
    | cons update rest =>
      refine hg.put ⟨binding, hf, ?_⟩
      rw [RuntimeState.box, if_neg hin]
      rw [hbuffered] at ht
      exact ht.forward

/-- What a client prepares is sent, or it has not changed. -/
theorem Sound.send (hg : Sound c posted net) (hfound : net.connections.find? session = some connection) {id : String}
    {prepared : Except ProjectionClientError CommandEnvelope × NetworkApp} (hvalid : validCommandId id = true)
    (hsame : prepared.2.commandPrefix = connection.app.commandPrefix)
    (hok : ∀ command, prepared.1 = .ok command → Prepares connection.app.client id command prepared.2.client)
    (herror : ∀ error, prepared.1 = .error error → prepared.2.client = connection.app.client) :
    Sound c posted (net.send session connection prepared) := by
  obtain ⟨binding, hf, ht⟩ := hg.speaks session connection hfound
  obtain ⟨result, app⟩ := prepared
  cases result with
  | ok command => exact hg.put ⟨binding, hf, ht.send (hok command rfl) hsame hvalid⟩
  | error error => exact hg.put ⟨binding, hf, ht.unchanged (herror error rfl) hsame⟩

theorem Sound.act (hg : Sound c posted net) (hfound : net.connections.find? session = some connection) (action : Action) :
    Sound c posted (net.send session connection (connection.app.prepareAction action)) := by
  obtain ⟨_, _, ht⟩ := hg.speaks session connection hfound
  obtain ⟨nonce, hnamed⟩ := ht.named
  have hvalid := commandId_valid nonce (connection.app.commandSequence + 1)
      (show "-".toList.all idCharacter = true by decide) (by decide)
  rw [← hnamed] at hvalid
  refine hg.send hfound hvalid rfl ?_ ?_
  · intro command hok
    exact prepareAction_prepares (Prod.ext hok rfl)
  · intro error herror
    exact ProjectionClient.prepareAction_error (Prod.ext herror rfl)

theorem Sound.prefer (hg : Sound c posted net) (hfound : net.connections.find? session = some connection) (alwaysShow : Bool) :
    Sound c posted (net.send session connection (connection.app.prepareShowdownPreference alwaysShow)) := by
  obtain ⟨_, _, ht⟩ := hg.speaks session connection hfound
  obtain ⟨nonce, hnamed⟩ := ht.named
  have hvalid := commandId_valid nonce (connection.app.commandSequence + 1)
      (show "-show-".toList.all idCharacter = true by decide) (by decide)
  rw [← hnamed] at hvalid
  refine hg.send hfound hvalid rfl ?_ ?_
  · intro command hok
    exact prepareShowdownPreference_prepares (Prod.ext hok rfl)
  · intro error herror
    exact ProjectionClient.prepareShowdownPreference_error (Prod.ext herror rfl)

/-- The answer to the command a connection has sent is written. -/
theorem Sound.answer (hg : Sound c posted net) (message : ServerWireMessage)
    (hspeaks : ∀ connection, net.connections.find? session = some connection → net.runtime.Speaks session
      { connection with requests := connection.requests.tail, replies := connection.replies ++ [message] }) :
    Sound c posted (net.answer session message) := by
  refine ⟨hg.serves, hg.keyed, ?_⟩
  intro other found hfound
  rw [Net.answer, OrdMap.find_modify] at hfound
  split at hfound
  · rename_i he
    subst he
    obtain ⟨connection, hbefore, rfl⟩ := Option.map_eq_some_iff.mp hfound
    exact hspeaks connection hbefore
  · exact hg.speaks other found hfound

theorem Sound.serve (hg : Sound c posted net) {command : CommandEnvelope} {rest : List CommandEnvelope}
    (hfound : net.connections.find? session = some connection) (hrequests : connection.requests = command :: rest) :
    Sound c posted (net.serve session command) := by
  obtain ⟨binding, hf, ht⟩ := hg.speaks session connection hfound
  obtain ⟨hvalid, hseat, hlast⟩ : validCommandId command.commandId = true ∧ binding.role.audience = .player command.payload.seat ∧
      rest = [] := by
    have hwaits := ht.waits
    rw [hrequests] at hwaits
    generalize responses connection.replies = before at hwaits
    cases hwaits with
    | command pending _ _ _ hsent => exact ⟨hsent.valid, hsent.seat, rfl⟩
  subst hlast
  -- An error names no command, so it leaves the client waiting for nothing.
  have hrefuse : ∀ (other : Net) (error : PublicWireError), Sound c posted other →
      (∀ found, other.connections.find? session = some found → found.requests = [command]) →
      Sound c posted (other.answer session (.error error)) := by
    intro other error hother hone
    refine hother.answer _ fun found hsome => ?_
    obtain ⟨binding', hf', ht'⟩ := hother.speaks session found hsome
    refine ⟨binding', hf', ?_⟩
    rw [hone found hsome] at ht' ⊢
    exact ht'.refuse error
  unfold Net.serve
  split
  · refine hrefuse net _ hg fun found hsome => ?_
    rw [hfound] at hsome
    cases hsome
    exact hrequests
  have hasked := hg.asked (.submit session command) fun _ _ _ => ⟨by simp, by simp, by simp⟩
  have hone : ∀ found, (net.asked ((RuntimeOp.submit session command).apply net.runtime)).connections.find? session = some found →
      found.requests = [command] := by
    intro found hsome
    rw [Net.asked, OrdMap.find_mapVal, hfound] at hsome
    cases hsome
    split
    · exact hrequests
    · exact hrequests
  have hresponds := fun response s' => @Serves.responds c posted net.runtime s' session command hg.serves hg.keyed hvalid response
  have hrole := (hg.serves.performs (.submit session command)).role hg.serves hf
  simp only [RuntimeOp.apply] at hasked hone hrole
  generalize net.runtime.submit session command = submitted at hasked hone hresponds hrole
  obtain ⟨result, runtime⟩ := submitted
  cases result with
  | error error => exact hrefuse _ _ hasked hone
  | ok response =>
    obtain ⟨hid, hshown, hsequence⟩ := hresponds response runtime rfl
    obtain ⟨connected, hf'⟩ := hrole
    refine hasked.answer _ fun found hsome => ?_
    obtain ⟨binding', hf'', ht'⟩ := hasked.speaks session found hsome
    obtain rfl := Option.some.inj (hf'.symm.trans hf'')
    refine ⟨_, hf'', ?_⟩
    rw [hone found hsome] at ht' ⊢
    exact ht'.respond hid (by rw [hseat]; exact hshown) hsequence

/-- The next message is accepted. -/
theorem Sound.deliver (hg : Sound c posted net) {message : ServerWireMessage} {rest : List ServerWireMessage}
    (hfound : net.connections.find? session = some connection) (hreplies : connection.replies = message :: rest)
    (hfree : overtaking connection.app.client connection.requests (message :: rest) = false) :
    (connection.app.applyMessage message).1 = .ok () ∧
      Sound c posted (net.put session { connection with app := (connection.app.applyMessage message).2, replies := rest }) := by
  obtain ⟨binding, hf, ht⟩ := hg.speaks session connection hfound
  rw [hreplies] at ht
  obtain ⟨hok, ht'⟩ := ht.deliver hfree
  exact ⟨hok, hg.put ⟨binding, hf, ht'⟩⟩

theorem Sound.close (hg : Sound c posted net) (session : GuestSessionId) :
    Sound c posted
      (Net.asked { net with connections := net.connections.erase session }
        ((RuntimeOp.disconnect session).apply net.runtime)) := by
  have hclosed : Sound c posted { net with connections := net.connections.erase session } := by
    refine ⟨hg.serves, hg.keyed, fun other found hfound => ?_⟩
    rw [OrdMap.find_erase] at hfound
    split at hfound
    · cases hfound
    · exact hg.speaks other found hfound
  exact hclosed.asked (.disconnect session) fun _ _ _ => ⟨by simp, by simp, by simp⟩

theorem Sound.welcome (hg : Sound c posted net) (hnew : net.connections.contains session = false) (nonce : Nat) :
    Sound c posted (net.welcome session nonce) := by
  have habsent : ∀ k : Net, (∀ other, k.connections.contains other = net.connections.contains other) → ∀ op : RuntimeOp,
      op.session = some session → ∀ other, op.session = some other → k.connections.contains other = true →
      op ≠ .subscribe other ∧ op ≠ .receive other ∧ op ≠ .hangUp other := by
    intro k hk op hop other hother hin
    obtain rfl := Option.some.inj (hop.symm.trans hother)
    rw [hk, hnew] at hin
    cases hin
  have hkept : ∀ (k : Net) (runtime : RuntimeState) (other : GuestSessionId),
      (k.asked runtime).connections.contains other = k.connections.contains other := by
    intro k runtime other
    rw [OrdMap.contains, OrdMap.contains, Net.asked, OrdMap.find_mapVal, Option.isSome_map]
  have hreconnected := hg.asked (.reconnect session) (habsent net (fun _ => rfl) _ rfl)
  unfold Net.welcome
  simp only [RuntimeOp.apply] at hreconnected
  generalize net.runtime.reconnect session = answer at hreconnected
  obtain ⟨result, reconnected⟩ := answer
  cases result with
  | error error => exact hreconnected
  | ok _ =>
    dsimp only at hreconnected ⊢
    have hsubscribed := hreconnected.asked (.subscribe session) (habsent _ (hkept net reconnected) _ rfl)
    have hdisconnected := hsubscribed.asked (.disconnect session) fun _ _ _ => ⟨by simp, by simp, by simp⟩
    have hreceived := hsubscribed.asked (.receive session)
      (habsent _ (fun other => (hkept _ _ other).trans (hkept _ _ other)) _ rfl)
    have hruntime : ∀ (k : Net) (runtime : RuntimeState), (k.asked runtime).runtime = runtime := fun _ _ => rfl
    simp only [RuntimeOp.apply, hruntime] at hsubscribed hdisconnected hreceived
    cases hsubscribe : reconnected.subscribe session with
    | mk result runtime =>
      rw [hsubscribe] at hsubscribed hdisconnected hreceived
      cases result with
      | error error => exact hdisconnected
      | ok _ =>
        dsimp only at hdisconnected hreceived ⊢
        split
        · exact hreceived.put (RuntimeState.subscribe_speaks hsubscribe ‹_› nonce)
        · exact hdisconnected

/-- One step that overtakes no command: every client still agrees, and reports no error. -/
theorem Sound.step (hg : Sound c posted net) {step : NetStep} (hfree : net.overtakes step = false) :
    Sound c posted (net.step step) ∧ net.failure step = none := by
  cases step with
  | welcome session nonce =>
    refine ⟨?_, rfl⟩
    rw [Net.step]
    split
    · exact hg
    · exact hg.welcome (Bool.eq_false_iff.mpr ‹_›) nonce
  | act session action =>
    refine ⟨?_, rfl⟩
    rw [Net.step]
    split
    · exact hg
    · exact hg.act ‹_› action
  | prefer session alwaysShow =>
    refine ⟨?_, rfl⟩
    rw [Net.step]
    split
    · exact hg
    · exact hg.prefer ‹_› alwaysShow
  | forward session =>
    refine ⟨?_, rfl⟩
    rw [Net.step]
    split
    · exact hg
    · exact hg.forward ‹_›
  | serve session =>
    refine ⟨?_, rfl⟩
    rw [Net.step]
    split
    · exact hg
    split
    · exact hg
    · exact hg.serve ‹_› ‹_›
  | deliver session =>
    rw [Net.step, Net.failure]
    cases hfound : net.connections.find? session with
    | none => exact ⟨hg, rfl⟩
    | some connection =>
      rw [overtakes, hfound, Option.any_some] at hfree
      dsimp only
      cases hreplies : connection.replies with
      | nil => exact ⟨hg, rfl⟩
      | cons message rest =>
        rw [hreplies] at hfree
        obtain ⟨hok, hnext⟩ := hg.deliver hfound hreplies hfree
        dsimp only
        rw [hok]
        exact ⟨hnext, rfl⟩
  | close session =>
    refine ⟨?_, rfl⟩
    rw [Net.step]
    split
    · exact hg.close session
    · exact hg
  | request op =>
    refine ⟨?_, rfl⟩
    rw [Net.step]
    split
    · exact hg
    · rename_i hnot
      refine hg.asked op fun session hop hin => ?_
      rw [hop, Option.any_some, hin] at hnot
      exact absurd rfl hnot

theorem Sound.unfailing (hg : Sound c posted net) (steps : List NetStep) (hfree : net.overtaken steps = false) :
    net.failures steps = [] := by
  induction steps generalizing net with
  | nil => rfl
  | cons step steps ih =>
    obtain ⟨hstep, hrest⟩ := Bool.or_eq_false_iff.mp hfree
    obtain ⟨hnext, hnone⟩ := hg.step hstep
    rw [failures, hnone, ih hnext hrest]
    rfl

/-- A table of a hand that nobody is connected to. -/
def table (tableId : TableId) (handId : HandId) (h : MultiwayHand) : Net := ⟨.spawn (.new tableId handId h), .empty⟩

/-- In a run of any clients at the table of a hand that overtakes no command, every message
    delivered is accepted. -/
theorem run_accepts (hstarts : HandStarts c h) (tableId : TableId) (handId : HandId) (steps : List NetStep)
    (hfree : (table tableId handId h).overtaken steps = false) : (table tableId handId h).failures steps = [] := by
  have hserves := (@RuntimeState.spawn_serves c h tableId handId hstarts).1
  refine Sound.unfailing ⟨hserves, ?_, fun _ _ hfound => by cases hfound⟩ steps hfree
  show (RuntimeState.spawn (.new tableId handId h)).Keyed
  intro entry hentry
  rw [RuntimeState.spawn_table] at hentry
  cases hentry

/-- Seats 0 and 2 are connected; seat 0, to act, checks. -/
def checking : List NetStep :=
  [.request (.bind ⟨"actor"⟩ ⟨1⟩ ⟨1⟩ (.player 0)), .request (.bind ⟨"other"⟩ ⟨1⟩ ⟨1⟩ (.player 2)), .welcome ⟨"actor"⟩ 1,
    .welcome ⟨"other"⟩ 2, .act ⟨"actor"⟩ .check]

/-- The check is served and answered; then both clients hear of it. -/
def answered : List NetStep :=
  checking ++ [.serve ⟨"actor"⟩, .deliver ⟨"actor"⟩, .forward ⟨"actor"⟩, .deliver ⟨"actor"⟩, .forward ⟨"other"⟩,
    .deliver ⟨"other"⟩]

/-- While the check is under way, seat 2 asks to show its hand; the actor hears of that
    before its check is served. -/
def outrun : List NetStep :=
  checking ++ [.prefer ⟨"other"⟩ true, .serve ⟨"other"⟩, .forward ⟨"actor"⟩, .deliver ⟨"actor"⟩, .serve ⟨"actor"⟩,
    .deliver ⟨"actor"⟩]

theorem checking_runs : ∃ h, HandStarts threeHanded h ∧ (table ⟨1⟩ ⟨1⟩ h).overtaken answered = false ∧
    ((table ⟨1⟩ ⟨1⟩ h).failures outrun).map (·.code) = [.responseCommandMismatch] := by
  have hrun : (threeHanded.build.toOption.map fun h =>
      let start := table ⟨1⟩ ⟨1⟩ { h with pacedShowdown := false }
      (start.overtaken answered, (start.failures outrun).map (·.code))) = some (false, [.responseCommandMismatch]) := by
    decide +kernel
  cases h : threeHanded.build with
  | error e => rw [h] at hrun; cases hrun
  | ok start =>
    rw [h] at hrun
    obtain ⟨hfree, hfails⟩ := Prod.mk.inj (Option.some.inj hrun)
    exact ⟨{ start with pacedShowdown := false }, ⟨⟨.refl _, rfl⟩, start, false, h, rfl⟩, hfree, hfails⟩

theorem run_accepts_three : ∃ h, HandStarts threeHanded h ∧ (table ⟨1⟩ ⟨1⟩ h).failures answered = [] := by
  obtain ⟨h, hstarts, hfree, _⟩ := checking_runs
  exact ⟨h, hstarts, run_accepts hstarts ⟨1⟩ ⟨1⟩ answered hfree⟩

/-- A command overtaken by another client's preference: its response is a protocol violation. -/
theorem overtaken_command_fails : ∃ h, HandStarts threeHanded h ∧
    ((table ⟨1⟩ ⟨1⟩ h).failures outrun).map (·.code) = [.responseCommandMismatch] := by
  obtain ⟨h, hstarts, _, hfails⟩ := checking_runs
  exact ⟨h, hstarts, hfails⟩

end sound

end Net

end OpenFelt
