/-
  OpenFelt.Registry.Clock — the clock of a tournament (`src/tournament.rs`,
  `tick_between_hands` and `validate`).

  The clock is a meter: time is spent on the level in force, or on a break, and crossing
  either mark moves it on. A validated schedule has no level without length, so the loop
  ends (`tick_spends`), and time ticked in two parts is time ticked at once
  (`tick_composes`). Whatever else happens in a run, its level only goes on (`play_goesOn`).
-/

import OpenFelt.Lib.Meter
import OpenFelt.Registry.Field

namespace OpenFelt

namespace TournamentController

variable {c c' : TournamentController} {config : TournamentConfig} {a b e : Nat}

/-- The configuration passes its check, and the level in force is one of its own. -/
structure Scheduled (c : TournamentController) : Prop where
  valid : c.config.validate = .ok ()
  level : c.levelIndex < c.config.levels.length

/-! ## The clock as a meter -/

/-- Time that ends neither the level nor the break. -/
def passed (elapsed : Nat) (c : TournamentController) : TournamentController :=
  if c.status = .break then { c with breakRemainingMillis := c.breakRemainingMillis - elapsed }
  else { c with levelElapsedMillis := c.levelElapsedMillis + elapsed }

/-- The break is over, or the level is. -/
def boundary (c : TournamentController) : TournamentController :=
  if c.status = .break then { c with breakRemainingMillis := 0, status := .running }
  else
    { c with
      levelElapsedMillis := 0
      levelIndex := min (c.levelIndex + 1) (c.config.levels.length - 1)
      status := if 0 < c.level.breakAfterSeconds then .break else c.status
      breakRemainingMillis :=
        if 0 < c.level.breakAfterSeconds then min (c.level.breakAfterSeconds * 1000) u64Max else c.breakRemainingMillis }

def clock : Meter TournamentController where
  room c := if c.status = .break then c.breakRemainingMillis else c.duration - c.levelElapsedMillis
  part := passed
  cross := boundary

theorem room_break (h : c.status = .break) : clock.room c = c.breakRemainingMillis := if_pos h

theorem room_level (h : c.status ≠ .break) : clock.room c = c.duration - c.levelElapsedMillis := if_neg h

theorem passed_break (h : c.status = .break) :
    clock.part e c = { c with breakRemainingMillis := c.breakRemainingMillis - e } := if_pos h

theorem passed_level (h : c.status ≠ .break) :
    clock.part e c = { c with levelElapsedMillis := c.levelElapsedMillis + e } := if_neg h

theorem clock_additive : clock.Additive := by
  constructor
  · intro k s _
    by_cases hs : s.status = .break
    · rw [passed_break hs, room_break hs]
      exact if_pos hs
    · rw [passed_level hs, room_level hs]
      show (if s.status = .break then _ else s.duration - (s.levelElapsedMillis + k)) = _
      rw [if_neg hs]
      omega
  · intro j k s _
    by_cases hs : s.status = .break
    · rw [passed_break hs, passed_break hs]
      refine (if_pos hs).trans ?_
      dsimp only
      rw [Nat.sub_sub]
    · rw [passed_level hs, passed_level hs]
      refine (if_neg hs).trans ?_
      dsimp only
      rw [Nat.add_assoc]
  · intro k s _
    by_cases hs : s.status = .break
    · rw [passed_break hs]
      show boundary _ = boundary s
      unfold boundary
      rw [if_pos hs]
      exact (if_pos hs).symm
    · rw [passed_level hs]
      show boundary _ = boundary s
      unfold boundary
      rw [if_neg hs]
      exact (if_neg hs).symm

/-- One turn of the loop spends within the room, or crosses. -/
theorem tickOnce_eq (c : TournamentController) (elapsed : Nat) : c.tickOnce elapsed =
    if elapsed < clock.room c then (0, clock.part elapsed c) else (elapsed - clock.room c, clock.cross c) := by
  unfold tickOnce
  by_cases hs : c.status = .break
  · rw [if_pos hs, room_break hs, passed_break hs]
    dsimp only
    by_cases hlt : elapsed < c.breakRemainingMillis
    · rw [if_pos hlt, Nat.min_eq_left (Nat.le_of_lt hlt), if_neg (by omega), Nat.sub_self]
    · have hle : c.breakRemainingMillis ≤ elapsed := Nat.le_of_not_lt hlt
      rw [if_neg hlt, Nat.min_eq_right hle, Nat.sub_self, if_pos rfl]
      show _ = (_, boundary c)
      unfold boundary
      rw [if_pos hs]
  · rw [if_neg hs, room_level hs, passed_level hs]
    dsimp only
    by_cases hlt : elapsed < c.duration - c.levelElapsedMillis
    · rw [if_pos hlt, Nat.min_eq_left (Nat.le_of_lt hlt), if_neg (by omega), Nat.sub_self]
    · rw [if_neg hlt, Nat.min_eq_right (Nat.le_of_not_lt hlt), if_pos (by omega)]
      show _ = (_, boundary c)
      unfold boundary
      rw [if_neg hs]

theorem tickLoop_zero (fuel : Nat) (c : TournamentController) : tickLoop fuel 0 c = c := by
  cases fuel with
  | zero => rfl
  | succ fuel =>
    unfold tickLoop
    rw [if_pos rfl]

theorem tickLoop_eq (fuel elapsed : Nat) (c : TournamentController) : tickLoop fuel elapsed c = clock.run fuel elapsed c := by
  induction fuel generalizing elapsed c with
  | zero => rfl
  | succ fuel ih =>
    unfold tickLoop Meter.run
    by_cases hzero : elapsed = 0
    · rw [if_pos hzero, if_pos hzero]
    rw [if_neg hzero, if_neg hzero, tickOnce_eq]
    by_cases hlt : elapsed < clock.room c
    · rw [if_pos hlt, if_pos hlt]
      exact tickLoop_zero fuel _
    · rw [if_neg hlt, if_neg hlt]
      exact ih _ _

/-! ## It comes to an end -/

theorem levelsValid_mem {prior : BlindValues} {levels : List TournamentLevel} (h : levelsValid prior levels = true)
    {level : TournamentLevel} (hm : level ∈ levels) : 60 ≤ level.durationSeconds := by
  induction levels generalizing prior with
  | nil => cases hm
  | cons first rest ih =>
    simp only [levelsValid, Bool.and_eq_true, decide_eq_true_eq] at h
    rcases List.mem_cons.mp hm with rfl | hm
    · omega
    · exact ih h.2 hm

theorem validate_levels (hv : config.validate = .ok ()) : config.levels ≠ [] ∧ levelsValid ⟨0, 0, 0⟩ config.levels = true := by
  unfold TournamentConfig.validate at hv
  split at hv
  · cases hv
  split at hv
  · cases hv
  split at hv
  · cases hv
  split at hv
  · cases hv
  rename_i hsome
  split at hv
  · cases hv
  rename_i hvalid
  rw [Bool.or_eq_true, not_or, List.isEmpty_iff] at hsome
  exact ⟨hsome.1, by simpa using hvalid⟩

theorem Scheduled.level_eq (hs : c.Scheduled) (hlevel : c.levelIndex < c.config.levels.length) :
    c.level = c.config.levels[c.levelIndex] := by
  unfold TournamentController.level
  rw [List.getD_eq_getElem?_getD, List.getElem?_eq_getElem hs.level]
  rfl

theorem Scheduled.duration_pos (hs : c.Scheduled) : 0 < c.duration := by
  have hlong := levelsValid_mem (validate_levels hs.valid).2 (hs.level_eq hs.level ▸ List.getElem_mem hs.level)
  unfold duration u64Max
  omega

theorem Scheduled.boundary (hs : c.Scheduled) : (clock.cross c).Scheduled := by
  show (TournamentController.boundary c).Scheduled
  have hlevel := hs.level
  unfold TournamentController.boundary
  split
  · exact ⟨hs.valid, hlevel⟩
  · refine ⟨hs.valid, ?_⟩
    dsimp only
    omega

/-- The marks ahead that cost no time. -/
def idleMarks (c : TournamentController) : Nat :=
  (if c.status = .break ∧ c.breakRemainingMillis = 0 then 1 else 0) + if c.duration ≤ c.levelElapsedMillis then 1 else 0

theorem idleMarks_break (h : c.status = .break) :
    idleMarks (clock.cross c) = if c.duration ≤ c.levelElapsedMillis then 1 else 0 := by
  show idleMarks (boundary c) = _
  unfold boundary
  rw [if_pos h]
  unfold idleMarks
  rw [if_neg (by simp), Nat.zero_add]
  rfl

theorem idleMarks_level (hs : c.Scheduled) (h : c.status ≠ .break) : idleMarks (clock.cross c) = 0 := by
  have hnext := hs.boundary.duration_pos
  have helapsed : (clock.cross c).levelElapsedMillis = 0 := by
    show (boundary c).levelElapsedMillis = 0
    unfold boundary
    rw [if_neg h]
  have hbreak : ¬ ((clock.cross c).status = .break ∧ (clock.cross c).breakRemainingMillis = 0) := by
    show ¬ ((boundary c).status = .break ∧ (boundary c).breakRemainingMillis = 0)
    unfold boundary
    rw [if_neg h]
    dsimp only
    split
    · unfold u64Max
      omega
    · exact fun hb => h hb.1
  unfold idleMarks
  rw [if_neg hbreak, if_neg (by omega)]

theorem clock_progress : clock.Progress Scheduled idleMarks := by
  constructor
  · exact fun _ hs => hs.boundary
  · intro s hs hroom
    by_cases hb : s.status = .break
    · rw [room_break hb] at hroom
      rw [idleMarks_break hb]
      unfold idleMarks
      rw [if_pos (show s.status = .break ∧ s.breakRemainingMillis = 0 from ⟨hb, hroom⟩)]
      omega
    · rw [room_level hb] at hroom
      rw [idleMarks_level hs hb]
      unfold idleMarks
      rw [if_pos (show s.duration ≤ s.levelElapsedMillis by omega)]
      omega
  · intro s hs
    by_cases hb : s.status = .break
    · rw [idleMarks_break hb]
      unfold idleMarks
      omega
    · rw [idleMarks_level hs hb]
      exact Nat.zero_le _

theorem idleMarks_le (c : TournamentController) : c.idleMarks ≤ 2 := by
  unfold idleMarks
  split <;> split <;> omega

theorem tick_playing (hp : c.Playing) (elapsed : Nat) : c.tickBetweenHands elapsed = tickLoop (elapsed + 2) elapsed c := by
  unfold tickBetweenHands
  exact if_pos (by simpa [Playing] using hp)

theorem tick_idle (hp : ¬ c.Playing) (elapsed : Nat) : c.tickBetweenHands elapsed = c := by
  unfold tickBetweenHands
  exact if_neg (by simpa [Playing] using hp)

/-- A tick spends its time. -/
theorem tick_spends (hs : c.Scheduled) (hp : c.Playing) (elapsed : Nat) :
    clock.Spends elapsed c (c.tickBetweenHands elapsed) := by
  rw [tick_playing hp, tickLoop_eq]
  exact Meter.run_spends clock_progress hs (Nat.add_le_add_left c.idleMarks_le elapsed)

theorem tick_ticked (hp : c.Playing) (elapsed : Nat) : Ticked c (c.tickBetweenHands elapsed) := by
  rw [tick_playing hp]
  exact tickLoop_ticked _ _ hp

/-- The clock only goes on, within the schedule. -/
theorem spends_rises {elapsed : Nat} (hs : c.Scheduled) (h : clock.Spends elapsed c c') :
    c'.Scheduled ∧ c'.config = c.config ∧ c.levelIndex ≤ c'.levelIndex := by
  refine Meter.Spends.invariant (m := clock)
    (Q := fun d => d.Scheduled ∧ d.config = c.config ∧ c.levelIndex ≤ d.levelIndex) ?_ ?_ h
    ⟨hs, rfl, Nat.le_refl _⟩
  · rintro k s ⟨hsched, hconfig, hle⟩ _
    show (passed k s).Scheduled ∧ (passed k s).config = c.config ∧ c.levelIndex ≤ (passed k s).levelIndex
    unfold passed
    split <;> exact ⟨⟨hsched.valid, hsched.level⟩, hconfig, hle⟩
  · rintro s ⟨hsched, hconfig, hle⟩
    refine ⟨hsched.boundary, ?_, ?_⟩
    · show (boundary s).config = _
      unfold boundary
      split <;> exact hconfig
    · show _ ≤ (boundary s).levelIndex
      have hlevel := hsched.level
      unfold boundary
      split
      · exact hle
      · dsimp only
        omega

/-! ## Runs -/

/-- The same schedule, at the same level or a later one. -/
structure GoesOn (c c' : TournamentController) : Prop where
  config : c'.config = c.config
  rises : c.levelIndex ≤ c'.levelIndex
  within : c.levelIndex < c.config.levels.length → c'.levelIndex < c.config.levels.length

theorem GoesOn.same (hconfig : c'.config = c.config) (hlevel : c'.levelIndex = c.levelIndex) : GoesOn c c' :=
  ⟨hconfig, Nat.le_of_eq hlevel.symm, fun h => hlevel ▸ h⟩

theorem GoesOn.refl (c : TournamentController) : GoesOn c c := .same rfl rfl

theorem GoesOn.trans {c'' : TournamentController} (h : GoesOn c c') (h' : GoesOn c' c'') : GoesOn c c'' :=
  ⟨h'.config.trans h.config, Nat.le_trans h.rises h'.rises, fun hc => h.config ▸ h'.within (h.config ▸ h.within hc)⟩

theorem GoesOn.scheduled (h : GoesOn c c') (hs : c.Scheduled) : c'.Scheduled :=
  ⟨h.config ▸ hs.valid, h.config ▸ h.within hs.level⟩

theorem eliminate_goesOn (n i : Nat) (l : List (SeatId × Nat)) (c : TournamentController) : GoesOn c (eliminate n i l c).2 := by
  induction l generalizing i c with
  | nil => exact .refl c
  | cons e rest ih =>
    unfold eliminate
    split
    · exact .refl c
    · split
      · exact .refl c
      · dsimp only
        split
        · exact .same rfl rfl
        · refine GoesOn.trans ?_ (ih (i + 1) _)
          exact .same rfl rfl

theorem completeHand_goesOn (c : TournamentController) (starting final : List (SeatId × Nat)) :
    GoesOn c (c.completeHand starting final).2 := by
  unfold completeHand
  split
  · exact .refl c
  split
  · exact .refl c
  dsimp only
  split
  · exact .refl c
  have hout := eliminate_goesOn c.remaining.size 0 (bustedSeats (stacksBySeat starting) (stacksBySeat final)) c
  split
  · rename_i he
    rw [he] at hout
    exact hout
  · rename_i left he
    rw [he] at hout
    refine hout.trans ?_
    rcases ({ left with handsCompleted := saturatingAdd64 left.handsCompleted 1 } : TournamentController).crown_cases with
      ⟨hsame, _⟩ | ⟨winner, _, hcrown⟩
    · rw [hsame]
      exact .same rfl rfl
    · rw [hcrown]
      exact .same rfl rfl

theorem apply_goesOn (hs : c.Scheduled) (op : TournamentOp) : GoesOn c (op.apply c) := by
  cases op with
  | register entrant =>
    show GoesOn c (c.register entrant).2
    unfold TournamentController.register
    split
    · exact .refl c
    split
    · exact .refl c
    split
    · exact .refl c
    split
    · exact .refl c
    · exact .same rfl rfl
  | unregister player =>
    show GoesOn c (c.unregister player).2
    unfold TournamentController.unregister
    split <;> exact .same rfl rfl
  | start =>
    show GoesOn c c.start.2
    unfold TournamentController.start
    split
    · exact .refl c
    split <;> exact .same rfl rfl
  | cancel =>
    show GoesOn c c.cancel.2
    unfold TournamentController.cancel
    split <;> exact .same rfl rfl
  | tick elapsedMillis =>
    show GoesOn c (c.tickBetweenHands elapsedMillis)
    by_cases hp : c.Playing
    · obtain ⟨hsched, hconfig, hle⟩ := spends_rises hs (tick_spends hs hp elapsedMillis)
      exact ⟨hconfig, hle, fun _ => hconfig ▸ hsched.level⟩
    · rw [tick_idle hp]
      exact .refl c
  | hand starting final => exact completeHand_goesOn c starting final

theorem play_goesOn (hs : c.Scheduled) (ops : List TournamentOp) : GoesOn c (c.play ops) := by
  induction ops generalizing c with
  | nil => exact .refl c
  | cons op ops ih =>
    have hfirst := apply_goesOn hs op
    exact hfirst.trans (ih (hfirst.scheduled hs))

theorem new_scheduled (hnew : TournamentController.new config = .ok c) : c.Scheduled := by
  have hf := fielded_new hnew
  obtain ⟨hsome, _⟩ := validate_levels hf.valid
  have hzero : c.levelIndex = 0 := by
    unfold TournamentController.new at hnew
    rw [hf.valid] at hnew
    cases hnew
    rfl
  have hstored : ({ config with joinCode := "" } : TournamentConfig).validate = .ok () := by
    have hvalid := hf.valid
    unfold TournamentConfig.validate at hvalid ⊢
    dsimp only
    split at hvalid
    · cases hvalid
    rename_i hentrants
    rw [if_neg hentrants]
    split at hvalid
    · cases hvalid
    rename_i hname
    rw [if_neg hname, if_neg (by simp)]
    split at hvalid
    · cases hvalid
    exact hvalid
  refine ⟨hf.configured ▸ hstored, ?_⟩
  rw [hzero, hf.configured]
  exact List.length_pos_iff.mpr hsome

/-- Whatever has been asked of a controller, its level is one of a validated schedule. -/
theorem play_scheduled (hnew : TournamentController.new config = .ok c) (ops : List TournamentOp) : (c.play ops).Scheduled :=
  (play_goesOn (new_scheduled hnew) ops).scheduled (new_scheduled hnew)

/-! ## Ticks compose -/

/-- One turn of the loop, while there is time left. -/
def turn (s : Nat × TournamentController) : Nat × TournamentController := if s.1 = 0 then s else s.2.tickOnce s.1

theorem turns_of_spends {elapsed : Nat} (h : clock.Spends elapsed c c') : ∃ n, turn^[n] (elapsed, c) = (0, c') := by
  induction h with
  | done s => exact ⟨0, rfl⟩
  | @within e s hpos hlt =>
    refine ⟨1, ?_⟩
    show turn (e, s) = _
    unfold turn
    rw [if_neg (by dsimp only; omega), tickOnce_eq, if_pos hlt]
  | @crossing e s t hpos hle _ ih =>
    obtain ⟨n, hn⟩ := ih
    refine ⟨n + 1, ?_⟩
    rw [Function.iterate_succ_apply]
    have hturn : turn (e, s) = (e - clock.room s, clock.cross s) := by
      unfold turn
      rw [if_neg (by dsimp only; omega), tickOnce_eq, if_neg (Nat.not_lt.mpr hle)]
    rw [hturn]
    exact hn

/-- What the clock does with `a` and then `b` milliseconds. -/
structure Composes (c : TournamentController) (a b : Nat) : Prop where
  /-- The loop has turns enough to spend all its time. -/
  ends : c.Playing → ∃ n, turn^[n] (a, c) = (0, c.tickBetweenHands a)
  adds : (c.tickBetweenHands a).tickBetweenHands b = c.tickBetweenHands (a + b)
  rises : c.levelIndex ≤ (c.tickBetweenHands a).levelIndex
  within : (c.tickBetweenHands a).levelIndex < c.config.levels.length

/-- On a validated schedule every tick ends, ticks add up, and levels only go on, to the last. -/
theorem tick_composes (hs : c.Scheduled) (a b : Nat) : c.Composes a b := by
  by_cases hp : c.Playing
  · have hspends := tick_spends hs hp a
    obtain ⟨hsched, hconfig, hle⟩ := spends_rises hs hspends
    have hthen := tick_spends hsched (tick_ticked hp a).playing b
    refine ⟨fun _ => turns_of_spends hspends, ?_, hle, hconfig ▸ hsched.level⟩
    exact (hspends.add clock_additive hthen).unique (tick_spends hs hp (a + b))
  · refine ⟨fun h => absurd h hp, ?_, ?_, ?_⟩
    · rw [tick_idle hp, tick_idle hp, tick_idle hp]
    · rw [tick_idle hp]
    · rw [tick_idle hp]
      exact hs.level

/-- Two levels, with a break between them. -/
def twoLevels : TournamentConfig where
  name := "cup"
  entrants := 2
  startingStack := 100
  levels := [⟨1, 2, 0, 60, 30⟩, ⟨2, 4, 0, 60, 0⟩]
  payout := ⟨100, [10000]⟩
  joinCode := ""

/-- Two enter, and their tournament starts. -/
def twoStart : List TournamentOp := [.register ⟨⟨1⟩, 0⟩, .register ⟨⟨2⟩, 1⟩, .start]

theorem tick_composes_two_levels : ∃ c, TournamentController.new twoLevels = .ok c ∧ (c.play twoStart).Playing ∧
    (c.play twoStart).Composes 60000 45000 := by
  have hstarts : (TournamentController.new twoLevels).toOption.map (fun c => decide (c.play twoStart).Playing) = some true := by
    decide +kernel
  cases hnew : TournamentController.new twoLevels with
  | error e =>
    rw [hnew] at hstarts
    cases hstarts
  | ok c =>
    rw [hnew] at hstarts
    exact ⟨c, rfl, of_decide_eq_true (Option.some.inj hstarts), tick_composes (play_scheduled hnew twoStart) 60000 45000⟩

end TournamentController

end OpenFelt
