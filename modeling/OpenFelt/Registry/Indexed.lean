/-
  OpenFelt.Registry.Indexed — the index of those who wait (`waiting_sessions` of
  `src/table_registry.rs`).

  Translation. `admission_status` looks for a session of the index in the queue of its
  table, and expects it there, at a place that fits a byte. `Indexed` says that it stands
  there and has no route, and that no queue is longer than is allowed.

  It holds after any calls but two (`Indexed.apply`): `join` asks nobody whether they wait,
  and `close_and_remove` sends nobody away. The server makes neither. The queues may hold
  more than the index: whoever a rollover seated before it failed is left in the queue.
-/

import OpenFelt.Registry.Queues

namespace OpenFelt

/-- The calls that may be made without a look at the queues. -/
def RegistryOp.SparesQueues : RegistryOp → Prop
  | closeAndRemove _ | join .. => False
  | _ => True

namespace TableRegistry

/-- Whoever is in the index stands in the queue of the table, which is bounded, and has no route. -/
structure Indexed (r : TableRegistry) : Prop where
  unrouted : ∀ session tableId, r.waitingSessions.find? session = some tableId → r.sessions.find? session = none
  queued : ∀ session tableId, r.waitingSessions.find? session = some tableId →
    ∃ table, r.tables.find? tableId = some table ∧ session ∈ table.queue
  fresh : ∀ tableId table, r.tables.find? tableId = some table → tableId.id < r.nextTableId
  bounded : ∀ tableId table, r.tables.find? tableId = some table → table.waiting.length ≤ maxTableWaitingEntries

section indexed
variable {r r' : TableRegistry} {shuffle : Shuffle} {now : Nat} {tableId id : TableId} {handId : HandId}
  {config : PublicTableConfig} {session x : GuestSessionId} {table table' : RegisteredTable} {op : RegistryOp}

theorem new_indexed {maxTables : Nat} {start : TableRegistry} (h : new maxTables = .ok start) : start.Indexed := by
  unfold new at h
  split at h
  · cases h
  · cases h
    exact ⟨fun _ _ h => (by cases h), fun _ _ h => (by cases h), fun _ _ h => (by cases h), fun _ _ h => (by cases h)⟩

/-- Nothing else of the registry matters. -/
theorem Indexed.congr (hi : r.Indexed) (htables : r'.tables = r.tables) (hnext : r'.nextTableId = r.nextTableId)
    (hindex : ∀ x t, r'.waitingSessions.find? x = some t →
      r.waitingSessions.find? x = some t ∧ r'.sessions.find? x = none) :
    r'.Indexed := by
  refine ⟨fun x t hx => (hindex x t hx).2, fun x t hx => ?_, ?_, ?_⟩
  · rw [htables]
    exact hi.queued x t (hindex x t hx).1
  · rw [htables, hnext]
    exact hi.fresh
  · rw [htables]
    exact hi.bounded

/-- One table is put, with everyone of the index still in its queue. -/
theorem Indexed.put (hi : r.Indexed) (htable : r.tables.find? id = some table) (htables : r'.tables = r.tables.insert id table')
    (hnext : r'.nextTableId = r.nextTableId) (hbounded : table'.waiting.length ≤ maxTableWaitingEntries)
    (hindex : ∀ x t, r'.waitingSessions.find? x = some t →
      r.waitingSessions.find? x = some t ∧ r'.sessions.find? x = none ∧ (t = id → x ∈ table.queue → x ∈ table'.queue)) :
    r'.Indexed := by
  refine ⟨fun x t hx => (hindex x t hx).2.1, fun x t hx => ?_, fun t found hfound => ?_, fun t found hfound => ?_⟩
  · obtain ⟨hbefore, _, hkept⟩ := hindex x t hx
    obtain ⟨found, hfound, hmem⟩ := hi.queued x t hbefore
    by_cases ht : t = id
    · subst ht
      rw [htable] at hfound
      cases hfound
      exact ⟨table', by rw [htables, OrdMap.find_insert_self], hkept rfl hmem⟩
    · exact ⟨found, by rw [htables, OrdMap.find_insert_ne ht]; exact hfound, hmem⟩
  · rw [htables, OrdMap.find_insert] at hfound
    rw [hnext]
    split at hfound
    · rename_i ht
      subst ht
      exact hi.fresh _ table htable
    · exact hi.fresh t found hfound
  · rw [htables, OrdMap.find_insert] at hfound
    split at hfound
    · cases hfound
      exact hbounded
    · exact hi.bounded t found hfound

/-- The table's queue, the routes and the index are as they were. -/
theorem Indexed.keep (hi : r.Indexed) (htable : r.tables.find? id = some table) (htables : r'.tables = r.tables.insert id table')
    (hnext : r'.nextTableId = r.nextTableId) (hwaiting : table'.waiting = table.waiting) (hsessions : r'.sessions = r.sessions)
    (hindex : r'.waitingSessions = r.waitingSessions) : r'.Indexed := by
  refine hi.put htable htables hnext (by rw [hwaiting]; exact hi.bounded id table htable) fun x t hx => ?_
  rw [hindex] at hx
  refine ⟨hx, by rw [hsessions]; exact hi.unrouted x t hx, fun _ hmem => ?_⟩
  rw [RegisteredTable.queue, hwaiting]
  exact hmem

/-! ## Every call -/

theorem Indexed.created (hi : r.Indexed) (hempty : table.waiting = []) :
    ({ r with nextTableId := r.nextTableId + 1 }.putTable ⟨r.nextTableId⟩ table).bumpRevision.Indexed := by
  refine ⟨hi.unrouted, fun x t hx => ?_, fun t found hfound => ?_, fun t found hfound => ?_⟩
  · obtain ⟨found, hfound, hmem⟩ := hi.queued x t hx
    have ht : t ≠ ⟨r.nextTableId⟩ := by
      rintro rfl
      exact Nat.lt_irrefl _ (hi.fresh _ found hfound)
    exact ⟨found, (OrdMap.find_insert_ne ht).trans hfound, hmem⟩
  · change (r.tables.insert ⟨r.nextTableId⟩ table).find? t = some found at hfound
    rw [OrdMap.find_insert] at hfound
    split at hfound
    · rename_i ht
      subst ht
      exact Nat.lt_succ_self _
    · exact Nat.lt_succ_of_lt (hi.fresh t found hfound)
  · change (r.tables.insert ⟨r.nextTableId⟩ table).find? t = some found at hfound
    rw [OrdMap.find_insert] at hfound
    split at hfound
    · cases hfound
      rw [hempty]
      exact Nat.zero_le _
    · exact hi.bounded t found hfound

theorem Indexed.removed {keep : TableId → Bool} {revision : Nat} (hi : r.Indexed)
    (hempty : ∀ t table, r.tables.find? t = some table → keep t = false → table.waiting = []) :
    Indexed { r with tables := r.tables.filterKey keep, revision := revision } := by
  have hleft : ∀ t found, (r.tables.filterKey keep).find? t = some found → r.tables.find? t = some found := by
    intro t found hfound
    rw [OrdMap.find_filterKey] at hfound
    split at hfound
    · exact hfound
    · cases hfound
  refine ⟨hi.unrouted, fun x t hx => ?_, fun t found hfound => hi.fresh t found (hleft t found hfound),
    fun t found hfound => hi.bounded t found (hleft t found hfound)⟩
  · obtain ⟨found, hfound, hmem⟩ := hi.queued x t hx
    cases hkeep : keep t with
    | true => exact ⟨found, (OrdMap.find_filterKey keep).trans ((if_pos hkeep).trans hfound), hmem⟩
    | false =>
      rw [RegisteredTable.queue, hempty t found hfound hkeep] at hmem
      cases hmem

/-- A session that does not wait gets its route. -/
theorem Indexed.joined {nextHandId : Nat} {seat : SeatId} (hi : r.Indexed) (hnew : r.waitingSessions.find? session = none)
    (htable : r.tables.find? id = some table) (hwaiting : table'.waiting = table.waiting) :
    (r.routed session id seat table' nextHandId).Indexed := by
  refine hi.put htable rfl rfl (by rw [hwaiting]; exact hi.bounded id table htable) fun x t hx => ?_
  have hwaits : r.waitingSessions.find? x = some t := hx
  have hne : x ≠ session := by
    rintro rfl
    rw [hnew] at hwaits
    cases hwaits
  refine ⟨hwaits, (OrdMap.find_insert_ne hne).trans (hi.unrouted x t hwaits), fun _ hmem => ?_⟩
  rw [RegisteredTable.queue, hwaiting]
  exact hmem

theorem Indexed.enqueued {requestedSeat : Option SeatId} (hi : r.Indexed) (hunrouted : r.sessions.find? session = none)
    (htable : r.tables.find? id = some table) (hroom : table.waiting.length < maxTableWaitingEntries) :
    ({ r with waitingSessions := r.waitingSessions.insert session id }.putTable id { table with
      waiting := table.waiting ++ [(⟨session, requestedSeat⟩ : WaitingEntry)]
      lastActivity := now }).bumpRevision.Indexed := by
  have hput : ({ r with waitingSessions := r.waitingSessions.erase session }.putTable id { table with
      waiting := table.waiting ++ [(⟨session, requestedSeat⟩ : WaitingEntry)]
      lastActivity := now }).bumpRevision.Indexed := by
    have hlength : (table.waiting ++ [(⟨session, requestedSeat⟩ : WaitingEntry)]).length ≤ maxTableWaitingEntries := by
      rw [List.length_append, List.length_singleton]
      exact hroom
    refine hi.put htable rfl rfl hlength fun x t hx => ?_
    change (r.waitingSessions.erase session).find? x = some t at hx
    rw [OrdMap.find_erase] at hx
    split at hx
    · cases hx
    · exact ⟨hx, hi.unrouted x t hx, fun _ hmem => by simpa [RegisteredTable.queue] using Or.inl hmem⟩
  refine ⟨fun x t hx => ?_, fun x t hx => ?_, hput.fresh, hput.bounded⟩
  · change (r.waitingSessions.insert session id).find? x = some t at hx
    by_cases hne : x = session
    · exact hne ▸ hunrouted
    · rw [OrdMap.find_insert_ne hne] at hx
      exact hi.unrouted x t hx
  · change (r.waitingSessions.insert session id).find? x = some t at hx
    by_cases hne : x = session
    · subst hne
      rw [OrdMap.find_insert_self] at hx
      cases hx
      exact ⟨_, OrdMap.find_insert_self, by simp [RegisteredTable.queue]⟩
    · rw [OrdMap.find_insert_ne hne] at hx
      exact hput.queued x t ((OrdMap.find_erase_ne hne).trans hx)

theorem Indexed.unqueued (hi : r.Indexed) (htable : r.tables.find? id = some table) :
    ({ r with waitingSessions := r.waitingSessions.erase session }.putTable id { table with
      waiting := table.waiting.filter fun entry => entry.session ≠ session
      lastActivity := now }).bumpRevision.Indexed := by
  have hshorter : (table.waiting.filter fun entry => entry.session ≠ session).length ≤ maxTableWaitingEntries :=
    (List.length_filter_le _ _).trans (hi.bounded id table htable)
  refine hi.put htable rfl rfl hshorter fun x t hx => ?_
  change (r.waitingSessions.erase session).find? x = some t at hx
  rw [OrdMap.find_erase] at hx
  split at hx
  · cases hx
  · rename_i hne
    refine ⟨hx, hi.unrouted x t hx, fun _ hmem => ?_⟩
    obtain ⟨entry, hentry, rfl⟩ := List.mem_map.mp hmem
    exact List.mem_map.mpr ⟨entry, List.mem_filter.mpr ⟨hentry, by simpa using hne⟩, rfl⟩

/-! ## After a hand -/

/-- Whoever is still in the index has not been seated, and goes on waiting if nothing failed. -/
theorem admitWaiting_index (waiting : List WaitingEntry) (a : Admission) (x : GuestSessionId) (t : TableId)
    (hx : (admitWaiting id config waiting a).2.waitingSessions.find? x = some t) :
    a.waitingSessions.find? x = some t ∧ (admitWaiting id config waiting a).2.sessions.find? x = a.sessions.find? x ∧
      ((admitWaiting id config waiting a).1 = .ok () → x ∈ waiting.map (·.session) →
        x ∈ (admitWaiting id config waiting a).2.waiting.map (·.session)) := by
  induction waiting generalizing a with
  | nil => exact ⟨hx, rfl, fun _ hmem => hmem⟩
  | cons entry rest ih =>
    unfold admitWaiting at hx ⊢
    cases hseat : config.seatFor a.lifecycle entry.requestedSeat with
    | none =>
      rw [hseat] at hx
      exact ⟨hx, rfl, fun _ hmem => hmem⟩
    | some seat =>
      rw [hseat] at hx
      dsimp only at hx ⊢
      unfold checkedNext at hx ⊢
      by_cases hnext : a.nextPlayerId < u64Max
      · rw [if_pos hnext] at hx ⊢
        dsimp only at hx ⊢
        rcases hjoin : a.lifecycle.joinWithEntry ⟨a.nextPlayerId⟩ seat config.startingStack .postLiveBigBlind
          with ⟨result, lifecycle⟩
        rw [hjoin] at hx
        cases result with
        | error error => exact ⟨hx, rfl, fun h => (by cases h)⟩
        | ok u =>
          obtain ⟨hbefore, hroute, hkept⟩ := ih (a.seated id entry seat lifecycle) hx
          have hne : x ≠ entry.session := by
            rintro rfl
            exact absurd (hbefore.symm.trans (OrdMap.find_erase.trans (if_pos rfl))) (by simp)
          refine ⟨(OrdMap.find_erase_ne hne).symm.trans hbefore, hroute.trans (OrdMap.find_insert_ne hne), fun hok hmem => ?_⟩
          rw [List.map_cons, List.mem_cons] at hmem
          exact hkept hok (hmem.resolve_left hne)
      · rw [if_neg hnext] at hx ⊢
        exact ⟨hx, rfl, fun h => (by cases h)⟩

/-- Nobody enters the queue when it is let in. -/
theorem admitWaiting_length (waiting : List WaitingEntry) (a : Admission)
    (h : (admitWaiting id config waiting a).1 = .ok ()) :
    (admitWaiting id config waiting a).2.waiting.length ≤ waiting.length := by
  induction waiting generalizing a with
  | nil => exact Nat.le_refl _
  | cons entry rest ih =>
    unfold admitWaiting at h ⊢
    cases hseat : config.seatFor a.lifecycle entry.requestedSeat with
    | none => exact Nat.le_refl _
    | some seat =>
      rw [hseat] at h
      dsimp only at h ⊢
      unfold checkedNext at h ⊢
      by_cases hnext : a.nextPlayerId < u64Max
      · rw [if_pos hnext] at h ⊢
        dsimp only at h ⊢
        rcases hjoin : a.lifecycle.joinWithEntry ⟨a.nextPlayerId⟩ seat config.startingStack .postLiveBigBlind
          with ⟨result, lifecycle⟩
        rw [hjoin] at h
        cases result with
        | error error => cases h
        | ok u => exact (ih _ h).trans (Nat.le_succ _)
      · rw [if_neg hnext] at h
        cases h

theorem reseating_index {finished : FinishedHand} (hi : r.Indexed) {result : Except TableRegistryError Unit} {a : Admission}
    (hreseat : r.reseating now id finished = (result, a)) (x : GuestSessionId) (t : TableId)
    (hx : a.waitingSessions.find? x = some t) : r.waitingSessions.find? x = some t ∧ a.sessions.find? x = none ∧
      (result = .ok () → x ∈ finished.table.queue → x ∈ a.waiting.map (·.session)) := by
  have hdeparted : r.waitingSessions.find? x = some t → (r.departed finished).sessions.find? x = none := by
    intro hwaits
    rw [departed]
    exact depart_routes.trans (by rw [hi.unrouted x t hwaits, ite_self])
  rw [reseating_eq] at hreseat
  split at hreseat
  · cases hreseat
    exact ⟨hx, hdeparted hx, fun _ hmem => hmem⟩
  · have hindex := @admitWaiting_index id finished.table.config finished.table.waiting (r.departed finished) x t
    rw [hreseat] at hindex
    obtain ⟨hwaits, hroute, hkept⟩ := hindex hx
    exact ⟨hwaits, hroute.trans (hdeparted hwaits), hkept⟩

theorem reseating_length {finished : FinishedHand} {a : Admission} (hreseat : r.reseating now id finished = (.ok (), a)) :
    a.waiting.length ≤ finished.table.waiting.length := by
  rw [reseating_eq] at hreseat
  split at hreseat
  · cases hreseat
    exact Nat.le_refl _
  · have hlength := @admitWaiting_length id finished.table.config finished.table.waiting (r.departed finished)
    rw [hreseat] at hlength
    exact hlength rfl

theorem Indexed.rolled {result : Except TableRegistryError (Option HandId)} (hi : r.Indexed)
    (h : RollsOver r shuffle now id handId result r') : r'.Indexed := by
  cases h with
  | refused => exact hi
  | other => exact hi
  | unsettled error finished => exact hi.congr rfl rfl fun x t hx => ⟨hx, hi.unrouted x t hx⟩
  | unseated error finished a _ _ hreseat =>
    exact hi.congr rfl rfl fun x t hx => ⟨(reseating_index hi hreseat x t hx).1, (reseating_index hi hreseat x t hx).2.1⟩
  | unstarted error finished a _ _ hreseat =>
    exact hi.congr rfl rfl fun x t hx => ⟨(reseating_index hi hreseat x t hx).1, (reseating_index hi hreseat x t hx).2.1⟩
  | rested finished a hfinished _ hreseat =>
    obtain ⟨_, _, hf⟩ := finishedHand_some hfinished
    have hshorter : a.waiting.length ≤ maxTableWaitingEntries := (reseating_length hreseat).trans (hi.bounded _ _ hf.table)
    refine hi.put hf.table rfl rfl hshorter fun x t hx => ?_
    obtain ⟨hwaits, hroute, hkept⟩ := reseating_index hi hreseat x t hx
    exact ⟨hwaits, hroute, fun _ hmem => hkept rfl hmem⟩
  | started started finished a hfinished _ hreseat =>
    obtain ⟨_, _, hf⟩ := finishedHand_some hfinished
    have hshorter : a.waiting.length ≤ maxTableWaitingEntries := (reseating_length hreseat).trans (hi.bounded _ _ hf.table)
    refine hi.put hf.table rfl rfl hshorter fun x t hx => ?_
    obtain ⟨hwaits, hroute, hkept⟩ := reseating_index hi hreseat x t hx
    exact ⟨hwaits, hroute, fun _ hmem => hkept rfl hmem⟩

theorem Indexed.step (hi : r.Indexed) (hspares : op.SparesQueues) (hl : Leaves r op r') : r'.Indexed := by
  cases hl with
  | aside op r' hs =>
    refine hi.congr hs.tables hs.nextTableId fun x t hx => ?_
    rw [hs.waitingSessions] at hx
    exact ⟨hx, by rw [hs.sessions]; exact hi.unrouted x t hx⟩
  | created op table _ hnew => exact hi.created hnew.waiting
  | removed op keep revision hremovable =>
    refine hi.removed fun t table htable hkeep => ((hremovable t table htable hkeep).2).resolve_left ?_
    rintro rfl
    exact hspares
  | joined op shuffle now session tableId requestedSeat table seat lifecycle tournament hop hjoin =>
    rcases hop with rfl | ⟨h, accessCode, rfl, hnew, _⟩
    · exact absurd hspares id
    · exact hi.joined hnew hjoin.registered rfl
  | joinedAndStarted op shuffle now session tableId requestedSeat table seat lifecycle tournament started hop hjoin =>
    rcases hop with rfl | ⟨h, accessCode, rfl, hnew, _⟩
    · exact absurd hspares id
    · exact hi.joined hnew hjoin.registered rfl
  | queued h shuffle now session tableId requestedSeat accessCode table hunrouted _ htable _ hroom =>
    exact hi.enqueued hunrouted htable hroom
  | unqueued op now session tableId table _ _ htable => exact hi.unqueued htable
  | unregistered op now session tableId table route controller left lifecycle hroute _ htable =>
    have hshort : table.waiting.length ≤ maxTableWaitingEntries := hi.bounded tableId table htable
    refine hi.put htable rfl rfl hshort fun x t hx => ⟨hx, ?_, fun _ hmem => hmem⟩
    exact OrdMap.find_erase.trans (by rw [hi.unrouted x t hx, ite_self])
  | left now session route table lifecycle _ htable => exact hi.keep htable rfl rfl rfl rfl rfl
  | rolled shuffle now tableId handId result r' hrolls => exact hi.rolled hrolls
  | ticked shuffle now tableId table controller htable => exact hi.keep htable rfl rfl rfl rfl rfl
  | resumed shuffle now tableId table controller started htable => exact hi.keep htable rfl rfl rfl rfl rfl
  | served tableId op table htable => exact hi.keep htable rfl rfl rfl rfl rfl

theorem Indexed.apply (hi : r.Indexed) (op : RegistryOp) (hspares : op.SparesQueues) : (op.apply r).Indexed :=
  hi.step hspares (apply_leaves r op)

/-! ## Who is in the index -/

/-- Only the session itself enters the index, and only when it asks for a seat. -/
theorem Leaves.entered (hi : r.Indexed) (hl : Leaves r op r') (hx : (r'.waitingSessions.find? x).isSome = true) :
    (r.waitingSessions.find? x).isSome = true ∨
      ∃ h shuffle now tableId requestedSeat accessCode, op = .joinOrWait h shuffle now x tableId requestedSeat accessCode := by
  obtain ⟨t, ht⟩ := Option.isSome_iff_exists.mp hx
  have hsame : r.waitingSessions.find? x = some t → (r.waitingSessions.find? x).isSome = true := fun h => by rw [h]; rfl
  cases hl with
  | aside op r' hs =>
    rw [hs.waitingSessions] at ht
    exact Or.inl (hsame ht)
  | queued h shuffle now session tableId requestedSeat accessCode =>
    change (r.waitingSessions.insert session tableId).find? x = some t at ht
    by_cases hne : x = session
    · subst hne
      exact Or.inr ⟨h, shuffle, now, tableId, requestedSeat, accessCode, rfl⟩
    · rw [OrdMap.find_insert_ne hne] at ht
      exact Or.inl (hsame ht)
  | unqueued op now session tableId table =>
    change (r.waitingSessions.erase session).find? x = some t at ht
    rw [OrdMap.find_erase] at ht
    split at ht
    · cases ht
    · exact Or.inl (hsame ht)
  | rolled shuffle now tableId handId result r' hrolls =>
    refine Or.inl ?_
    cases hrolls with
    | refused => exact hx
    | other => exact hx
    | unsettled => exact hx
    | unseated error finished a _ _ hreseat => exact hsame (reseating_index hi hreseat x t ht).1
    | unstarted error finished a _ _ hreseat => exact hsame (reseating_index hi hreseat x t ht).1
    | rested finished a _ _ hreseat => exact hsame (reseating_index hi hreseat x t ht).1
    | started started finished a _ _ hreseat => exact hsame (reseating_index hi hreseat x t ht).1
  | _ => exact Or.inl hx

/-- The connection that is gone leaves nothing behind in the index. -/
theorem Indexed.cancelled (hi : r.Indexed) (now : Nat) (session : GuestSessionId) :
    (r.cancelPendingRegistration now session).waitingSessions.find? session = none := by
  unfold cancelPendingRegistration
  cases hwaits : r.waitingSessions.find? session with
  | none =>
    have hidle : ∀ tableId, (r.cancelWait now session tableId).2.waitingSessions.find? session = none := by
      intro tableId
      by_contra hne
      have hleaves : Leaves r (.cancelWait now session tableId) (r.cancelWait now session tableId).2 := cancelWait_leaves
      rcases hleaves.entered hi (Option.isSome_iff_ne_none.mpr hne) with h | h
      · rw [hwaits] at h
        cases h
      · obtain ⟨_, _, _, _, _, _, he⟩ := h
        cases he
    cases r.sessions.find? session with
    | none => exact hwaits
    | some route => exact hidle route.tableId
  | some tableId =>
    obtain ⟨table, htable, _⟩ := hi.queued session tableId hwaits
    show (r.cancelWait now session tableId).2.waitingSessions.find? session = none
    unfold cancelWait
    rw [hi.unrouted session tableId hwaits]
    dsimp only
    rw [if_neg (not_not_intro hwaits), htable]
    exact OrdMap.find_erase_self

end indexed

end TableRegistry

end OpenFelt
