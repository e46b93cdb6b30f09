/-
  OpenFelt.Registry.Starts — what it takes to start a hand at a table: the lifecycle
  begins it, an id is left for it, its chips and blinds make a hand, and every session
  that holds a seat of the table is bound to a seat of the hand.

  `startHand_ok_iff` says so of every path that starts one; `bindSeats_ok_iff` is the
  last part, which a player without chips fails.
-/

import OpenFelt.Protocol.Deadlines
import OpenFelt.Registry.TableRegistry

namespace OpenFelt

open MultiwayHand RuntimeState

/-! ## Binding the seats -/

section binding
variable {s s' : RuntimeState} {session : GuestSessionId} {seat : SeatId} {tableId : TableId} {handId : HandId}
  {entries : List (SeatId × GuestSessionId)}

/-- A session may be bound to a seat: both are new to the runtime, and the seat is in the hand. -/
structure Bindable (s : RuntimeState) (seat : SeatId) (session : GuestSessionId) : Prop where
  unbound : s.sessions.find? session = none
  unowned : ∀ other binding, s.sessions.find? other = some binding → binding.role ≠ .player seat
  seated : seat ∈ s.table.hand.occupiedSeats

/-- The sessions once one more is bound. -/
def RuntimeState.withPlayer (s : RuntimeState) (seat : SeatId) (session : GuestSessionId) : RuntimeState :=
  { s with sessions := s.sessions.insert session ⟨.player seat, true⟩ }

theorem bind_bindable (hb : Bindable s seat session) :
    s.bind session s.tableId s.handId (.player seat) = (.ok (), s.withPlayer seat session) := by
  unfold RuntimeState.bind
  rw [if_neg (not_not_intro rfl), if_neg (not_not_intro rfl), if_neg (by rw [OrdMap.contains, hb.unbound]; simp)]
  dsimp only
  have hfree : s.sessions.values.any (fun binding => binding.role = .player seat) = false := by
    rw [List.any_eq_false]
    intro binding hmem
    obtain ⟨other, hf⟩ := OrdMap.mem_values.mp hmem
    simpa using hb.unowned other binding hf
  obtain ⟨view, hview, _⟩ := @ProtocolAuthority.snapshot_ok s.table (.player seat) (fun p hp => by cases hp; exact hb.seated)
  rw [if_neg (by rw [hfree]; simp), hview]
  rfl

theorem bind_refused (hb : ¬ Bindable s seat session) :
    ∃ error, s.bind session s.tableId s.handId (.player seat) = (.error error, s) := by
  unfold RuntimeState.bind
  rw [if_neg (not_not_intro rfl), if_neg (not_not_intro rfl)]
  by_cases hin : s.sessions.contains session = true
  · rw [if_pos hin]
    exact ⟨_, rfl⟩
  have hnew : s.sessions.find? session = none := by simpa [OrdMap.contains] using hin
  rw [if_neg hin]
  dsimp only
  by_cases howned : s.sessions.values.any (fun binding => binding.role = .player seat) = true
  · rw [if_pos howned]
    exact ⟨_, rfl⟩
  rw [if_neg howned]
  have hout : seat ∉ s.table.hand.occupiedSeats := by
    intro hmem
    refine hb ⟨hnew, ?_, hmem⟩
    intro other binding hf hrole
    exact howned (List.any_eq_true.mpr ⟨binding, OrdMap.mem_values.mpr ⟨other, hf⟩, by simpa using hrole⟩)
  have hany : s.table.hand.occupiedSeats.any (· == seat) = false := by
    rw [List.any_eq_false]
    intro q hq he
    exact hout (beq_iff_eq.mp he ▸ hq)
  have hview : s.table.snapshot (.player seat) = .error (.playerSeatNotOccupied seat) := by
    have hout : s.table.hand.unseated (.player seat) = some seat := by
      unfold MultiwayHand.unseated
      dsimp only
      rw [if_neg (by rw [hany]; simp)]
    unfold ProtocolAuthority.snapshot MultiwayHand.projectHand
    rw [hout]
    rfl
  rw [hview]
  exact ⟨_, rfl⟩

/-- Every seat's session can be bound, one after the other. -/
structure AllBindable (s : RuntimeState) (entries : List (SeatId × GuestSessionId)) : Prop where
  each : ∀ e ∈ entries, Bindable s e.1 e.2
  sessions : (entries.map (·.2)).Nodup

theorem Bindable.after (hs : Bindable s seat session) {q : SeatId} {other : GuestSessionId} (hseat : seat ≠ q)
    (hsession : session ≠ other) : Bindable (s.withPlayer q other) seat session := by
  refine ⟨?_, ?_, hs.seated⟩
  · exact (OrdMap.find_insert_ne hsession).trans hs.unbound
  · intro x binding hf
    have hcases : (s.sessions.insert other ⟨.player q, true⟩).find? x = some binding := hf
    rw [OrdMap.find_insert] at hcases
    split at hcases
    · cases hcases
      intro hrole
      exact hseat (SessionRole.player.inj hrole).symm
    · exact hs.unowned x binding hcases

theorem Bindable.before {q : SeatId} {other : GuestSessionId} (hs : Bindable (s.withPlayer q other) seat session)
    (hnew : s.sessions.find? other = none) : Bindable s seat session ∧ seat ≠ q ∧ session ≠ other := by
  have hunbound : (s.sessions.insert other ⟨.player q, true⟩).find? session = none := hs.unbound
  rw [OrdMap.find_insert] at hunbound
  split at hunbound
  · cases hunbound
  rename_i hsession
  refine ⟨⟨hunbound, ?_, hs.seated⟩, ?_, hsession⟩
  · intro x binding hf
    refine hs.unowned x binding ?_
    have hx : x ≠ other := by
      intro he
      rw [he, hnew] at hf
      cases hf
    exact (OrdMap.find_insert_ne hx).trans hf
  · intro he
    exact hs.unowned other ⟨.player q, true⟩ OrdMap.find_insert_self (by rw [he])

/-- The runtime with every seat's session bound. -/
def RuntimeState.withPlayers (s : RuntimeState) (entries : List (SeatId × GuestSessionId)) : RuntimeState :=
  entries.foldl (fun s e => s.withPlayer e.1 e.2) s

theorem bindSeats_ok (hseats : (entries.map (·.1)).Nodup) (hb : AllBindable s entries) (htable : tableId = s.tableId)
    (hhand : handId = s.handId) : bindSeats tableId handId stayConnected entries s = .ok (s.withPlayers entries) := by
  induction entries generalizing s with
  | nil => rfl
  | cons e rest ih =>
    obtain ⟨hfirst, hrest⟩ := List.nodup_cons.mp hseats
    obtain ⟨hnew, hsessions⟩ := List.nodup_cons.mp hb.sessions
    unfold bindSeats
    rw [htable, hhand, bind_bindable (hb.each e List.mem_cons_self)]
    dsimp only [stayConnected]
    rw [← htable, ← hhand]
    refine ih hrest ⟨?_, hsessions⟩ htable hhand
    intro other hother
    refine (hb.each other (List.mem_cons_of_mem _ hother)).after ?_ ?_
    · intro he
      exact hfirst (List.mem_map.mpr ⟨other, hother, he⟩)
    · intro he
      exact hnew (List.mem_map.mpr ⟨other, hother, he⟩)

theorem bindSeats_bindable (htable : tableId = s.tableId) (hhand : handId = s.handId)
    (h : bindSeats tableId handId stayConnected entries s = .ok s') : AllBindable s entries := by
  induction entries generalizing s with
  | nil => exact ⟨fun e he => (by cases he), List.nodup_nil⟩
  | cons e rest ih =>
    have hfirst : Bindable s e.1 e.2 := by
      by_contra hno
      obtain ⟨error, he⟩ := bind_refused hno
      unfold bindSeats at h
      rw [htable, hhand, he] at h
      cases h
    unfold bindSeats at h
    rw [htable, hhand, bind_bindable hfirst] at h
    dsimp only [stayConnected] at h
    have hrest := @ih (s.withPlayer e.1 e.2) htable hhand (by rw [htable, hhand]; exact h)
    have hbefore : ∀ other ∈ rest, Bindable s other.1 other.2 ∧ other.1 ≠ e.1 ∧ other.2 ≠ e.2 := by
      intro other hother
      exact (hrest.each other hother).before hfirst.unbound
    refine ⟨?_, ?_⟩
    · intro other hother
      rcases List.mem_cons.mp hother with rfl | hother
      · exact hfirst
      · exact (hbefore other hother).1
    · rw [List.map_cons, List.nodup_cons]
      refine ⟨?_, hrest.sessions⟩
      intro hmem
      obtain ⟨other, hother, he⟩ := List.mem_map.mp hmem
      exact (hbefore other hother).2.2 he

theorem sessions_withPlayers (entries : List (SeatId × GuestSessionId)) (s : RuntimeState) :
    s.withPlayers entries = { s with sessions := (s.withPlayers entries).sessions } := by
  induction entries generalizing s with
  | nil => rfl
  | cons e rest ih => exact ih (s.withPlayer e.1 e.2)

/-- Each seat's session holds its seat, connected, and nobody else holds one. -/
theorem find_withPlayers (hsessions : (entries.map (·.2)).Nodup) (session : GuestSessionId) :
    (s.withPlayers entries).sessions.find? session =
      match entries.find? fun e => e.2 = session with
      | some e => some ⟨.player e.1, true⟩
      | none => s.sessions.find? session := by
  induction entries generalizing s with
  | nil => rfl
  | cons e rest ih =>
    obtain ⟨hnew, hrest⟩ := List.nodup_cons.mp hsessions
    have hfind := @ih (s.withPlayer e.1 e.2) hrest
    rw [show s.withPlayers (e :: rest) = (s.withPlayer e.1 e.2).withPlayers rest from rfl, hfind, List.find?_cons]
    by_cases he : e.2 = session
    · have hnone : rest.find? (fun e => decide (e.2 = session)) = none := by
        rw [List.find?_eq_none]
        intro other hother hsame
        exact hnew (List.mem_map.mpr ⟨other, hother, (of_decide_eq_true hsame).trans he.symm⟩)
      rw [hnone, decide_eq_true he]
      dsimp only
      rw [← he]
      exact OrdMap.find_insert_self
    · rw [decide_eq_false he]
      cases rest.find? fun e => decide (e.2 = session) with
      | some other => rfl
      | none => exact OrdMap.find_insert_ne (Ne.symm he)

end binding

/-! ## Starting a hand -/

section starting
variable {c : HandConfig} {h : MultiwayHand} {shuffle : Shuffle} {tableId : TableId} {handId : HandId}
  {config : PublicTableConfig} {lifecycle : TableLifecycle} {seatSessions : OrdMap SeatId GuestSessionId} {blinds : BlindValues}
  {seedFor : Nat → Option Nat} {nextHandId : Nat} {started : StartedHand}

/-- Every deck is a whole one. -/
def Shuffle.Fair (shuffle : Shuffle) : Prop := ∀ seed handId, (shuffle seed handId).Shuffled

theorem paced_starts (hdeck : c.deck.Shuffled) (hb : c.build = .ok h) : HandStarts c h.enablePacedShowdown :=
  ⟨hdeck, h, true, hb, rfl⟩

theorem spawn_ids (table : ProtocolAuthority) :
    (RuntimeState.spawn table).tableId = table.tableId ∧ (RuntimeState.spawn table).handId = table.handId ∧
      (RuntimeState.spawn table).sessions = .empty ∧ (RuntimeState.spawn table).acceptedEvents = [] := by
  unfold RuntimeState.spawn
  dsimp only
  rw [rescheduleDeadline_eq]
  rcases rearmed_cases ⟨table, table.tableId, table.handId, .empty, .empty, 0, none, 0, 0, [], none⟩ with
    ⟨_, he⟩ | ⟨_, _, _, _, he⟩ <;> rw [he] <;> exact ⟨rfl, rfl, rfl, rfl⟩

theorem spawn_seats (hdeck : c.deck.Shuffled) (hb : c.build = .ok h) (p : SeatId) :
    p ∈ (RuntimeState.spawn (.newPaced tableId handId h)).table.hand.occupiedSeats ↔ p ∈ c.seatStacks.map (·.1) := by
  rw [spawn_table]
  have hseated := ((paced_starts hdeck hb).stage).seated.1 p
  exact hseated.trans (List.lookup_isSome_iff.trans (by simp))

/-- The sessions of the table fit the seats dealt: each holds one, and no session two. -/
structure SeatsDealt (seatSessions : OrdMap SeatId GuestSessionId) (start : HandStart) : Prop where
  dealt : ∀ seat session, seatSessions.find? seat = some session → seat ∈ start.seatStacks.map (·.1)
  sessions : seatSessions.values.Nodup

theorem spawn_bindable (hdeck : c.deck.Shuffled) (hb : c.build = .ok h) :
    AllBindable (.spawn (.newPaced tableId handId h)) seatSessions.entries ↔
      (∀ seat session, seatSessions.find? seat = some session → seat ∈ c.seatStacks.map (·.1)) ∧ seatSessions.values.Nodup := by
  have hids := spawn_ids (.newPaced tableId handId h)
  constructor
  · intro hall
    refine ⟨?_, hall.sessions⟩
    intro seat session hf
    exact (spawn_seats hdeck hb seat).mp (hall.each (seat, session) (OrdMap.mem_entries.mpr hf)).seated
  · rintro ⟨hdealt, hsessions⟩
    refine ⟨?_, hsessions⟩
    rintro ⟨seat, session⟩ hmem
    refine ⟨by rw [hids.2.2.1]; rfl, ?_, (spawn_seats hdeck hb seat).mpr (hdealt seat session (OrdMap.mem_entries.mp hmem))⟩
    intro other binding hf
    rw [hids.2.2.1] at hf
    cases hf

/-- What a started hand is made of. -/
structure Starts (shuffle : Shuffle) (tableId : TableId) (config : PublicTableConfig) (lifecycle : TableLifecycle)
    (seatSessions : OrdMap SeatId GuestSessionId) (blinds : BlindValues) (seedFor : Nat → Option Nat) (nextHandId : Nat)
    (start : HandStart) (hand : MultiwayHand) (started : StartedHand) : Prop where
  begins : lifecycle.beginHand = (.ok start, started.lifecycle)
  next : nextHandId < u64Max
  builds : (start.intoHand config.seats blinds (shuffle (seedFor start.number) ⟨nextHandId⟩)).build = .ok hand
  binds : SeatsDealt seatSessions start
  id : started.handId = ⟨nextHandId⟩
  following : started.nextHandId = nextHandId + 1
  runtime : started.runtime = (RuntimeState.spawn (.newPaced tableId ⟨nextHandId⟩ hand)).withPlayers seatSessions.entries

theorem startHand_starts (hfair : shuffle.Fair)
    (h : startHand shuffle tableId config lifecycle seatSessions blinds seedFor nextHandId stayConnected = .ok started) :
    ∃ start hand, Starts shuffle tableId config lifecycle seatSessions blinds seedFor nextHandId start hand started := by
  unfold startHand at h
  rcases hbegin : lifecycle.beginHand with ⟨result, begun⟩
  rw [hbegin] at h
  cases result with
  | error error => cases h
  | ok start =>
    dsimp only at h
    unfold checkedNext at h
    by_cases hnext : nextHandId < u64Max
    · rw [if_pos hnext] at h
      dsimp only at h
      cases hbuild : (start.intoHand config.seats blinds (shuffle (seedFor start.number) ⟨nextHandId⟩)).build with
      | error error =>
        rw [hbuild] at h
        cases h
      | ok hand =>
        rw [hbuild] at h
        dsimp only at h
        have hids := spawn_ids (.newPaced tableId ⟨nextHandId⟩ hand)
        cases hbind : bindSeats tableId ⟨nextHandId⟩ stayConnected seatSessions.entries
            (.spawn (.newPaced tableId ⟨nextHandId⟩ hand)) with
        | error error =>
          rw [hbind] at h
          cases h
        | ok runtime =>
          rw [hbind] at h
          cases h
          have hall := bindSeats_bindable hids.1.symm hids.2.1.symm hbind
          have hruntime := bindSeats_ok seatSessions.nodup_keys hall hids.1.symm hids.2.1.symm
          obtain ⟨hdealt, hsessions⟩ := (spawn_bindable (hfair _ _) hbuild).mp hall
          exact ⟨start, hand, hbegin, hnext, hbuild, ⟨hdealt, hsessions⟩, rfl, rfl, Except.ok.inj (hbind.symm.trans hruntime)⟩
    · rw [if_neg hnext] at h
      cases h

/-- A hand starts exactly when the lifecycle begins one, an id is left, the chips and the blinds
    make a hand, and every seat's session fits. -/
theorem startHand_ok_iff (hfair : shuffle.Fair) :
    (∃ started, startHand shuffle tableId config lifecycle seatSessions blinds seedFor nextHandId stayConnected = .ok started) ↔
      ∃ start, lifecycle.beginHand.1 = .ok start ∧ nextHandId < u64Max ∧
        (start.intoHand config.seats blinds (shuffle (seedFor start.number) ⟨nextHandId⟩)).build.isOk = true ∧
          SeatsDealt seatSessions start := by
  constructor
  · rintro ⟨started, h⟩
    obtain ⟨start, hand, hs⟩ := startHand_starts hfair h
    exact ⟨start, by rw [hs.begins], hs.next, by rw [hs.builds]; rfl, hs.binds⟩
  · rintro ⟨start, hbegin, hnext, hbuild, hseats⟩
    unfold startHand
    rcases hb : lifecycle.beginHand with ⟨result, begun⟩
    rw [hb] at hbegin
    cases hbegin
    dsimp only
    unfold checkedNext
    rw [if_pos hnext]
    dsimp only
    cases hhand : (start.intoHand config.seats blinds (shuffle (seedFor start.number) ⟨nextHandId⟩)).build with
    | error error =>
      rw [hhand] at hbuild
      cases hbuild
    | ok hand =>
      have hids := spawn_ids (.newPaced tableId ⟨nextHandId⟩ hand)
      have hall := (@spawn_bindable _ hand tableId ⟨nextHandId⟩ seatSessions (hfair _ _) hhand).mpr
        ⟨hseats.dealt, hseats.sessions⟩
      have hbinds : bindSeats tableId ⟨nextHandId⟩ stayConnected seatSessions.entries
          (.spawn (.newPaced tableId ⟨nextHandId⟩ hand)) = .ok _ :=
        bindSeats_ok seatSessions.nodup_keys hall hids.1.symm hids.2.1.symm
      dsimp only
      rw [hbinds]
      exact ⟨_, rfl⟩

end starting

end OpenFelt
