/-
  OpenFelt.Game.Checkpoint — a table between hands, written out and read back
  (`src/game/lifecycle.rs`, `between_hand_checkpoint` and `restore_between_hand`).

  Proved:
  - `restoreSeats_ok`: entries at different seats and of different players all get their seats back.
  - `restores_iff_valid`: a reached table restores exactly when the run-state test passes.
  - `run_restores`: all through a run this is so exactly when nobody sits down at a table
    that emptied after a hand.
-/

import OpenFelt.Game.LifecycleRuns

namespace OpenFelt

namespace TableLifecycle

variable {t t' : TableLifecycle} {op : LifecycleOp}

/-- Nothing is under way and the table is open. -/
structure Quiescent (t : TableLifecycle) : Prop where
  idle : t.activeHand = none
  settled : t.pending = .empty
  isOpen : t.state ≠ .closed

/-- What a restart makes of a player. -/
def disconnected (st : SeatState) : SeatState :=
  { SeatState.seated st.playerId st.stack with
    connection := .disconnected
    tableParticipation := st.tableParticipation
    blindObligation := st.blindObligation }

/-- The checkpoint is taken and accepted, and gives the table back. -/
def Restores (t : TableLifecycle) : Prop :=
  ∃ checkpoint t', t.betweenHandCheckpoint = .ok checkpoint ∧ restoreBetweenHand checkpoint = .ok t' ∧
    t'.tableSize = t.tableSize ∧ (∀ p, t'.seats.seat p = (t.seats.seat p).map disconnected) ∧ t'.state = t.state ∧
    t'.lastButton = t.lastButton ∧ t'.nextHandNumber = t.nextHandNumber ∧
    t'.reservations = .empty ∧ t'.pending = .empty ∧ t'.activeHand = none

/-! ## The seats -/

theorem restoreSeats_ok {size : TableSize} (l : List BetweenHandSeat) (s : TableSeats) (hsize : s.tableSize = size)
    (hentries : ∀ e ∈ l, size.contains e.seat = true ∧ e.participation ≠ .leaving ∧ s.seat e.seat = none ∧
      ∀ q st, s.seat q = some st → st.playerId ≠ e.player)
    (hdistinct : l.Pairwise fun a b => a.seat ≠ b.seat ∧ a.player ≠ b.player) :
    ∃ s', restoreSeats size l s = .ok s' ∧ s'.tableSize = size ∧ (∀ e ∈ l, s'.seat e.seat = some e.restored) ∧
      ∀ q, (∀ e ∈ l, e.seat ≠ q) → s'.seat q = s.seat q := by
  induction l generalizing s with
  | nil => exact ⟨s, rfl, hsize, (fun e h => nomatch h), fun q _ => rfl⟩
  | cons entry rest ih =>
    obtain ⟨hhead, htail⟩ := List.pairwise_cons.mp hdistinct
    obtain ⟨hin, hstays, hfree, hnew⟩ := hentries entry List.mem_cons_self
    have hplaced : ∃ s₁, s.occupy entry.seat entry.restored = .ok s₁ := s.occupy_free (hsize ▸ hin) hfree hnew
    obtain ⟨s₁, hocc⟩ := hplaced
    obtain ⟨_, _, _, hsize₁, hseat₁⟩ := TableSeats.occupy_ok hocc
    have hrest : ∀ e ∈ rest, size.contains e.seat = true ∧ e.participation ≠ .leaving ∧ s₁.seat e.seat = none ∧
        ∀ q st, s₁.seat q = some st → st.playerId ≠ e.player := by
      intro e he
      obtain ⟨hin', hstays', hfree', hnew'⟩ := hentries e (List.mem_cons_of_mem _ he)
      obtain ⟨hseat, hplayer⟩ := hhead e he
      refine ⟨hin', hstays', by rw [hseat₁, if_neg (Ne.symm hseat), hfree'], fun q st hst => ?_⟩
      rw [hseat₁] at hst
      split at hst
      · cases hst; exact hplayer
      · exact hnew' q st hst
    obtain ⟨s', hs', hsize', hplaced, hothers⟩ := ih s₁ (hsize₁.trans hsize) hrest htail
    refine ⟨s', ?_, hsize', fun e he => ?_, fun q hq => ?_⟩
    · rw [restoreSeats, hin, hocc]
      simpa [hstays] using hs'
    · rcases List.mem_cons.mp he with rfl | he
      · rw [hothers _ fun e he => (hhead e he).1.symm, hseat₁, if_pos rfl]
      · exact hplaced e he
    · rw [hothers q fun e he => hq e (List.mem_cons_of_mem _ he), hseat₁, if_neg (hq entry List.mem_cons_self).symm]

/-- The seats of a checkpoint are the seats of the table. -/
theorem Roster.restoreSeats (hr : t.Roster) : ∃ seats,
    restoreSeats t.tableSize (t.seats.occupied.map BetweenHandSeat.taken) (.new t.tableSize) = .ok seats ∧
      seats.tableSize = t.tableSize ∧ ∀ p, seats.seat p = (t.seats.seat p).map disconnected := by
  have hdistinct : t.seats.occupied.Pairwise fun a b => a.1 ≠ b.1 ∧ a.2.playerId ≠ b.2.playerId := by
    refine (List.pairwise_map.mp t.seats.nodup_occupied).imp_of_mem fun {a b} ha hb hne => ⟨hne, fun he => hne ?_⟩
    exact t.seats.distinct _ _ _ _ (t.seats.mem_occupied.mp ha) (t.seats.mem_occupied.mp hb) he
  obtain ⟨seats, hok, hsize, hplaced, hothers⟩ := restoreSeats_ok
    (t.seats.occupied.map BetweenHandSeat.taken) (.new t.tableSize) rfl (fun e he => by
      obtain ⟨⟨p, st⟩, hmem, rfl⟩ := List.mem_map.mp he
      have hst := t.seats.mem_occupied.mp hmem
      exact ⟨hr.size ▸ t.seats.inside p st hst, hr.seats p st hst, rfl, fun _ _ h => nomatch h⟩)
    (List.pairwise_map.mpr (hdistinct.imp fun h => h))
  refine ⟨seats, hok, hsize, fun p => ?_⟩
  cases hp : t.seats.seat p with
  | some st =>
    exact hplaced _ (List.mem_map_of_mem (t.seats.mem_occupied.mpr hp))
  | none =>
    refine hothers p fun e he hep => ?_
    obtain ⟨⟨q, st⟩, hmem, rfl⟩ := List.mem_map.mp he
    subst hep
    have hst := (t.seats.mem_occupied.mp hmem).symm.trans hp
    cases hst

/-! ## One table -/

theorem restores_iff_valid (hr : t.Roster) (hq : t.Quiescent) : t.Restores ↔
    stateValid t.state t.nextHandNumber t.seats.occupiedCount t.eligibleCount = true := by
  obtain ⟨seats, hok, hsize, hseat⟩ := hr.restoreSeats
  have hoccupied : seats.occupiedCount = t.seats.occupiedCount :=
    TableSeats.occupiedCount_congr (hsize.trans hr.size.symm) fun p => by rw [hseat]; cases t.seats.seat p <;> rfl
  have heligible : seats.eligibleCount = t.seats.eligibleCount :=
    TableSeats.eligibleCount_congr (hsize.trans hr.size.symm) fun p => by
      rw [TableSeats.eligible, TableSeats.eligible, hseat]; cases t.seats.seat p <;> rfl
  have hidle : t.handActive = false := by rw [handActive, hq.idle]; rfl
  have hpending : ¬ t.pending.size ≠ 0 := by rw [hq.settled]; decide
  have hbutton : t.lastButton.any (fun seat => !t.tableSize.contains seat) = false := by
    cases hlast : t.lastButton with
    | none => rfl
    | some b => simp [hr.button b hlast]
  have hcounted : t.nextHandNumber ≠ 0 := Nat.pos_iff_ne_zero.mp hr.counted
  have htaken := TableLifecycle.betweenHandCheckpoint.eq_1 t
  rw [hidle, if_neg Bool.false_ne_true, if_neg hpending] at htaken
  constructor
  · rintro ⟨checkpoint, t', hck, hres, _⟩
    rw [htaken] at hck
    cases hck
    unfold restoreBetweenHand at hres
    simp only [hcounted, hbutton, hq.isOpen, decide_false, Bool.or_false, Bool.false_eq_true, if_false, hok] at hres
    split at hres
    · rename_i hvalid
      simpa [TableLifecycle.eligibleCount, hoccupied, heligible] using hvalid
    · cases hres
  · intro hvalid
    refine ⟨_, ⟨t.tableSize, seats, .empty, .empty, t.state, none, t.lastButton, t.nextHandNumber⟩, htaken, ?_, rfl, hseat,
      rfl, rfl, rfl, rfl, rfl, rfl⟩
    unfold restoreBetweenHand
    simp only [hcounted, hbutton, hq.isOpen, decide_false, Bool.or_false, Bool.false_eq_true, if_false, hok]
    rw [if_pos]
    simpa [TableLifecycle.eligibleCount, hoccupied, heligible] using hvalid

/-- A waiting table with players has dealt no hand yet. -/
def Fresh (t : TableLifecycle) : Prop := t.state = .waiting → t.seats.occupiedCount = 0 ∨ t.nextHandNumber = 1

theorem Sound.restores_iff (hs : t.Sound) (hq : t.Quiescent) : t.Restores ↔ t.Fresh := by
  rw [restores_iff_valid hs.toRoster hq, Fresh]
  cases hstate : t.state with
  | waiting => simp [stateValid]
  | running => simpa [stateValid] using hs.ready hq.idle hstate
  | paused => simpa [stateValid] using hs.short hq.idle hstate
  | closed => exact absurd hstate hq.isOpen

/-! ## Every run -/

/-- The call seats the first player at a table that emptied after a hand. -/
def Rejoins (op : LifecycleOp) (t : TableLifecycle) : Prop :=
  t.seats.occupiedCount = 0 ∧ 1 < t.nextHandNumber ∧ op.seats t = true

theorem refresh_waiting (hidle : t.activeHand = none) (hwait : t.refreshBetweenHandState.state = .waiting) :
    t.seats.occupiedCount = 0 ∨ t.state = .waiting := by
  unfold refreshBetweenHandState at hwait
  have hactive : t.handActive = false := by rw [handActive, hidle]; rfl
  rw [hactive, Bool.or_false] at hwait
  split at hwait
  · exact Or.inr hwait
  · by_cases hzero : t.seats.occupiedCount = 0
    · exact Or.inl hzero
    · simp only [if_neg hzero] at hwait
      split at hwait
      · split at hwait <;> cases hwait
      · split at hwait <;> cases hwait
      · rename_i hopen _ _
        cases hstate : t.state with
        | waiting => exact Or.inr rfl
        | _ => simp_all

theorem refresh_keeps_waiting (hwait : t.state = .waiting) : t.refreshBetweenHandState.state = .waiting := by
  unfold refreshBetweenHandState
  split
  · exact hwait
  · simp [hwait]

theorem Fresh.refresh (hf : t.Fresh) (hidle : t.activeHand = none) : t.refreshBetweenHandState.Fresh := by
  intro hwait
  have hfresh : t.seats.occupiedCount = 0 ∨ t.nextHandNumber = 1 := (refresh_waiting hidle hwait).elim Or.inl hf
  rw [refresh_frame]
  exact hfresh

theorem Fresh.modify (hfr : t.Fresh) {seat : SeatId} {f : SeatState → SeatState} {hf} : (t.modifySeat seat f hf).Fresh := by
  intro hwait
  rw [occupied_modifySeat]
  exact hfr hwait

theorem Fresh.taken {player : PlayerId} {seat : SeatId} {stack : Nat} (hf : t.Fresh) (hs : t.Sound)
    (hno : ¬ (t.seats.occupiedCount = 0 ∧ 1 < t.nextHandNumber)) (h : Seats t player seat stack t') : t'.Fresh := by
  obtain ⟨seats, reservations, _, rfl⟩ := h.taken
  refine Fresh.refresh (fun hwait => ?_) h.idle
  rcases hf hwait with hzero | hone
  · have hcounted := hs.counted
    exact Or.inr (show t.nextHandNumber = 1 by omega)
  · exact Or.inr hone

theorem Fresh.step (hf : t.Fresh) (hs : t.Sound) (hno : ¬ Rejoins op t) : (op.apply t).Fresh := by
  have hmoves := t.apply_moves op
  generalize op.apply t = left at hmoves
  cases hmoves with
  | same => exact hf
  | booked => exact hf
  | seated _ hseats h => exact hf.taken hs (fun hr => hno ⟨hr.1, hr.2, hseats⟩) h
  | entered entry hseats h =>
    exact (hf.taken hs (fun hr => hno ⟨hr.1, hr.2, hseats⟩) h).modify.refresh (hs.taken h).2.1
  | owed => exact hf.modify
  | linked => exact hf.modify
  | returned _ _ _ hidle => exact hf.modify.refresh hidle
  | passed _ player transition _ hidle =>
    have hkeep : t.seats.occupiedCount = 0 → t.applyTransition player transition = t := fun hzero => by
      have hnobody : t.seats.seatForPlayer player = none :=
        t.seats.seatForPlayer_none.mpr fun p st hst => by
          rw [TableSeats.occupiedCount_zero.mp hzero p] at hst; cases hst
      rw [applyTransition, hnobody]
    have hframe := applyTransition_frame t player transition
    refine Fresh.refresh (fun hwait => ?_) (by rw [hframe]; exact hidle)
    rw [hframe] at hwait
    rcases hf hwait with hzero | hone
    · rw [hkeep hzero]; exact Or.inl hzero
    · rw [hframe]; exact Or.inr hone
  | queued => exact hf
  | short _ _ hcount =>
    intro hwait
    simp only at hwait
    split at hwait
    · rename_i hzero; exact Or.inl hzero
    · cases hwait
  | dealt =>
    intro hwait
    cases hwait
  | completed finalStacks start settled hactive =>
    have hrunning := hs.running (by rw [handActive, hactive]; rfl)
    have hframe := applyPending_frame { t with
      seats := settled.entries.foldl (fun seats (x : SeatId × Nat) => seats.modify x.1 (settleSeat x.2) fun _ => rfl) t.seats
      activeHand := none }
    refine Fresh.refresh (fun hwait => ?_) (by rw [hframe])
    rw [hframe] at hwait
    cases hrunning.symm.trans hwait
  | closed =>
    intro hwait
    cases hwait

/-- The table such a player sits down at is never restored. -/
theorem Sound.rejoined (hs : t.Sound) (h : Rejoins op t) : (op.apply t).Quiescent ∧ ¬ (op.apply t).Fresh := by
  obtain ⟨hzero, hdealt, hseats⟩ := h
  have hseated : ∀ {player seat stack} {t' : TableLifecycle}, Seats t player seat stack t' →
      t'.state = .waiting ∧ t'.activeHand = none ∧ t'.seats.occupiedCount ≠ 0 ∧ t'.nextHandNumber = t.nextHandNumber := by
    intro player seat stack t' h
    obtain ⟨seats, reservations, hocc, rfl⟩ := h.taken
    have hwait : (refreshBetweenHandState { t with seats := seats, reservations := reservations }).state = .waiting :=
      refresh_keeps_waiting (hs.vacant h.idle h.isOpen hzero)
    have hsome : seats.occupiedCount ≠ 0 := fun hnone => by
      have hseat := (TableSeats.occupy_ok hocc).2.2.2.2 seat
      rw [if_pos rfl, TableSeats.occupiedCount_zero.mp hnone] at hseat
      cases hseat
    rw [refresh_frame]
    exact ⟨hwait, h.idle, hsome, rfl⟩
  have hbad : ∀ {left : TableLifecycle}, left.Sound → left.state = .waiting → left.activeHand = none →
      left.seats.occupiedCount ≠ 0 → left.nextHandNumber = t.nextHandNumber → left.Quiescent ∧ ¬ left.Fresh := by
    intro left hsound hwait hidle hsome hnumber
    refine ⟨⟨hidle, hsound.idle hidle, by rw [hwait]; simp⟩, fun hf => ?_⟩
    rcases hf hwait with h0 | h1
    · exact hsome h0
    · omega
  have hsound := hs.step op
  have hmoves := t.apply_moves op
  generalize op.apply t = left at hmoves hsound
  cases hmoves with
  | seated _ _ hnew =>
    obtain ⟨hwait, hidle, hsome, hnumber⟩ := hseated hnew
    exact hbad hsound hwait hidle hsome hnumber
  | @entered player seat stack entry t' _ hnew =>
    obtain ⟨hwait, hidle, hsome, hnumber⟩ := hseated hnew
    have hwait' : (t'.modifySeat seat (entering entry) fun _ => rfl).refreshBetweenHandState.state = .waiting :=
      refresh_keeps_waiting hwait
    rw [refresh_frame] at hsound ⊢
    have hkept := occupied_modifySeat t' seat (entering entry) fun _ => rfl
    exact hbad hsound hwait' hidle (fun h0 => hsome (hkept.symm.trans h0)) hnumber
  | same _ hnot => rw [hnot] at hseats; cases hseats
  | booked _ _ hnot => rw [hnot] at hseats; cases hseats
  | passed _ _ _ hnot => rw [hnot] at hseats; cases hseats
  | queued _ _ _ hnot => rw [hnot] at hseats; cases hseats
  | _ => cases hseats

/-- A table as it is made is as fresh as it says. -/
theorem Starts.fresh (hs : t.Starts) : t.Fresh := by
  cases hs with
  | new size => exact fun _ => Or.inr rfl
  | restored checkpoint _ h =>
    obtain ⟨_, _, _, hvalid⟩ := restoreBetweenHand_ok h
    intro hwait
    rw [hwait] at hvalid
    simpa [stateValid] using hvalid

/-- Every table of a run between hands, from a new table or a restored one, is restored from its own checkpoint,
    exactly when no call of the run seats a player at a table that emptied after a hand. -/
theorem run_restores (hstart : t.Starts) (ops : List LifecycleOp) :
    (∀ before after, ops = before ++ after → (t.run before).Quiescent → (t.run before).Restores) ↔
      ∀ before op after, ops = before ++ op :: after → ¬ Rejoins op (t.run before) := by
  have hsound := fun before => hstart.sound.run before
  constructor
  · intro hall before op after hops hrejoins
    obtain ⟨hquiet, hstale⟩ := (hsound before).rejoined hrejoins
    have hlast : t.run (before ++ [op]) = op.apply (t.run before) := run_append _ before [op]
    have hrestores := hall (before ++ [op]) after (by simpa using hops)
    rw [hlast] at hrestores
    exact hstale (((hsound before).step op).restores_iff hquiet |>.mp (hrestores hquiet))
  · intro hnever before after hops hquiet
    refine ((hsound before).restores_iff hquiet).mpr ?_
    clear hquiet
    induction before using List.reverseRecOn generalizing after with
    | nil => exact hstart.fresh
    | append_singleton before op ih =>
      rw [run_append]
      exact (ih (op :: after) (by simpa using hops)).step (hsound before) (hnever before op after (by simpa using hops))

/-- Two players after the first hand. -/
def playedOnce : BetweenHandLifecycle :=
  ⟨.three, [⟨0, ⟨1⟩, 101, .active, .clear⟩, ⟨1, ⟨2⟩, 99, .active, .clear⟩], .running, some 0, 2⟩

/-- One of them leaves, and a third player comes. -/
theorem run_restores_played_once : ∃ t, restoreBetweenHand playedOnce = .ok t ∧ ∀ before after,
    [.requestLeave ⟨2⟩, .join ⟨3⟩ 2 50] = before ++ after → (t.run before).Quiescent → (t.run before).Restores := by
  have hseated : (restoreBetweenHand playedOnce).toOption.map (fun t =>
      (t.seats.occupiedCount, ((LifecycleOp.requestLeave ⟨2⟩).apply t).seats.occupiedCount)) = some (2, 1) := by decide +kernel
  cases ht : restoreBetweenHand playedOnce with
  | error error => rw [ht] at hseated; cases hseated
  | ok t =>
    rw [ht] at hseated
    obtain ⟨htwo, hone⟩ := Prod.mk.inj (Option.some.inj hseated)
    refine ⟨t, rfl, (run_restores (.restored _ t ht) _).mpr ?_⟩
    refine throughout_cons (P := fun op t => ¬ Rejoins op t) (fun hrejoins => ?_)
      (throughout_cons (P := fun op t => ¬ Rejoins op t) (fun hrejoins => ?_) fun before call after hops => by simp at hops)
    · exact absurd (htwo.symm.trans hrejoins.1) (by decide)
    · exact absurd (hone.symm.trans hrejoins.1) (by decide)

/-- Two players play a hand and leave, and one of them comes back. -/
theorem rejoined_not_restored : ∃ ops : List LifecycleOp, ((new ⟨2, by decide, by decide⟩).run ops).Quiescent ∧
    ¬ ((new ⟨2, by decide, by decide⟩).run ops).Restores := by
  refine ⟨[.join ⟨1⟩ 0 100, .join ⟨2⟩ 1 100, .beginHand, .completeHand [(0, 101), (1, 99)], .requestLeave ⟨1⟩,
    .requestLeave ⟨2⟩, .join ⟨1⟩ 0 100], ⟨by decide +kernel, by decide +kernel, by decide +kernel⟩, fun h => ?_⟩
  have hf := ((Starts.new _).sound.run _).restores_iff ⟨by decide +kernel, by decide +kernel, by decide +kernel⟩ |>.mp h
    (by decide +kernel)
  revert hf
  decide +kernel

end TableLifecycle

end OpenFelt
