/-
  OpenFelt.Registry.Schedules — the blinds in force over a tournament
  (`src/tournament.rs`, `validate` and `current_blinds`).

  `validate` compares adjacent levels as tuples: the small blind never falls, but where it
  rises the big blind and the ante may fall, and where the first two rise the ante may.

  Proved (`never_down_iff`): over every run nothing in force ever falls exactly when no step
  of the schedule that raises one of them lowers a later one.
-/

import OpenFelt.Registry.Clock

namespace OpenFelt

/-- No blind and no ante is smaller in the second. -/
structure BlindValues.AtMost (a b : BlindValues) : Prop where
  smallBlind : a.smallBlind ≤ b.smallBlind
  bigBlind : a.bigBlind ≤ b.bigBlind
  ante : a.ante ≤ b.ante

theorem BlindValues.AtMost.refl (a : BlindValues) : a.AtMost a := ⟨Nat.le_refl _, Nat.le_refl _, Nat.le_refl _⟩

theorem BlindValues.AtMost.trans {a b d : BlindValues} (h : a.AtMost b) (h' : b.AtMost d) : a.AtMost d :=
  ⟨Nat.le_trans h.smallBlind h'.smallBlind, Nat.le_trans h.bigBlind h'.bigBlind, Nat.le_trans h.ante h'.ante⟩

instance (a b : BlindValues) : Decidable (a.AtMost b) :=
  decidable_of_iff (a.smallBlind ≤ b.smallBlind ∧ a.bigBlind ≤ b.bigBlind ∧ a.ante ≤ b.ante)
    ⟨fun h => ⟨h.1, h.2.1, h.2.2⟩, fun h => ⟨h.smallBlind, h.bigBlind, h.ante⟩⟩

/-- Where the step raises the small blind it lowers neither the big blind nor the ante, and where it raises only the
    big blind it does not lower the ante. -/
def TournamentLevel.StepsUp (a b : TournamentLevel) : Prop :=
  (a.smallBlind < b.smallBlind → a.bigBlind ≤ b.bigBlind ∧ a.ante ≤ b.ante) ∧
    (a.smallBlind = b.smallBlind → a.bigBlind < b.bigBlind → a.ante ≤ b.ante)

/-- Every step of the schedule does so. -/
def TournamentConfig.StepsUp (config : TournamentConfig) : Prop := config.levels.IsChain TournamentLevel.StepsUp

namespace TournamentController

variable {c c' : TournamentController} {config : TournamentConfig}

/-- In no run of a tournament with this configuration does a blind or the ante fall. -/
def NeverDown (config : TournamentConfig) : Prop :=
  ∀ c, TournamentController.new config = .ok c → ∀ before after,
    (c.play before).currentBlinds.AtMost ((c.play before).play after).currentBlinds

/-! ## Steps of a schedule -/

/-- Tuples that do not fall, and whose first rise lowers nothing after it. -/
theorem atMost_of_steps {a b : TournamentLevel} (hbelow : b.blinds.below a.blinds = false) (hsteps : a.StepsUp b) :
    a.blinds.AtMost b.blinds := by
  obtain ⟨hsmall, hbig⟩ := hsteps
  have hno : ¬ (b.smallBlind < a.smallBlind ∨ b.smallBlind = a.smallBlind ∧
      (b.bigBlind < a.bigBlind ∨ b.bigBlind = a.bigBlind ∧ b.ante < a.ante)) := by
    intro h
    have hfalls : b.blinds.below a.blinds = true := by
      unfold BlindValues.below
      simp only [Bool.or_eq_true, Bool.and_eq_true, decide_eq_true_eq]
      exact h
    rw [hfalls] at hbelow
    cases hbelow
  refine ⟨?_, ?_, ?_⟩
  · show a.smallBlind ≤ b.smallBlind
    omega
  · show a.bigBlind ≤ b.bigBlind
    omega
  · show a.ante ≤ b.ante
    omega

theorem steps_of_atMost {a b : TournamentLevel} (h : a.blinds.AtMost b.blinds) : a.StepsUp b :=
  ⟨fun _ => ⟨h.bigBlind, h.ante⟩, fun _ _ => h.ante⟩

theorem levelsValid_chain {prior : BlindValues} {levels : List TournamentLevel} (h : levelsValid prior levels = true) :
    levels.IsChain fun a b => b.blinds.below a.blinds = false := by
  induction levels generalizing prior with
  | nil => exact .nil
  | cons first rest ih =>
    simp only [levelsValid, Bool.and_eq_true] at h
    have hrest := ih h.2
    cases rest with
    | nil => exact .singleton _
    | cons second rest =>
      refine .cons_cons ?_ hrest
      have hnext := h.2
      simp only [levelsValid, Bool.and_eq_true, Bool.not_eq_true'] at hnext
      exact hnext.1.2

theorem levels_mono (hvalid : config.validate = .ok ()) (hsteps : config.StepsUp) {i j : Nat} (hij : i ≤ j)
    (hi : i < config.levels.length) (hj : j < config.levels.length) :
    config.levels[i].blinds.AtMost config.levels[j].blinds := by
  have hbelow := List.isChain_iff_getElem.mp (levelsValid_chain (validate_levels hvalid).2)
  have hup := List.isChain_iff_getElem.mp hsteps
  induction j with
  | zero =>
    obtain rfl : i = 0 := by omega
    exact .refl _
  | succ j ih =>
    by_cases hlast : i = j + 1
    · subst hlast
      exact .refl _
    · exact (ih (by omega) (by omega)).trans (atMost_of_steps (hbelow j hj) (hup j hj))

theorem Scheduled.blinds_eq (hs : c.Scheduled) (hlevel : c.levelIndex < c.config.levels.length) :
    c.currentBlinds = c.config.levels[c.levelIndex].blinds := by
  rw [currentBlinds, hs.level_eq hlevel]

/-! ## Reaching a level -/

/-- So many entrants in the first seats, before the start. -/
structure Registered (config : TournamentConfig) (n : Nat) (c : TournamentController) : Prop where
  config : c.config = { config with joinCode := "" }
  status : c.status = .registering
  size : c.entrants.size = n
  first : ∀ p s, c.entrants.find? p = some s → p.value ≤ n ∧ s.val < n
  level : c.levelIndex = 0
  elapsed : c.levelElapsedMillis = 0

def firstSeats (n : Nat) : List TournamentOp := (List.range n).map fun i => .register ⟨⟨i + 1⟩, Fin.ofNat maxTableSeats i⟩

theorem Registered.next {n : Nat} (hr : Registered config n c) (hroom : n < config.entrants) (hseats : n < maxTableSeats) :
    Registered config (n + 1) (c.register ⟨⟨n + 1⟩, Fin.ofNat maxTableSeats n⟩).2 := by
  have hseat : (Fin.ofNat maxTableSeats n).val = n := Nat.mod_eq_of_lt hseats
  have hentrants : c.config.entrants = config.entrants := by rw [hr.config]
  have hnew : c.entrants.find? ⟨n + 1⟩ = none := by
    cases hf : c.entrants.find? ⟨n + 1⟩ with
    | none => rfl
    | some s =>
      have hle : n + 1 ≤ n := (hr.first _ s hf).1
      omega
  have hfree : c.entrants.values.any (· = Fin.ofNat maxTableSeats n) = false := by
    rw [List.any_eq_false]
    intro s hs hsame
    obtain ⟨p, hp⟩ := OrdMap.mem_values.mp hs
    have hlt := (hr.first p s hp).2
    rw [of_decide_eq_true hsame, hseat] at hlt
    omega
  have hcontains : c.entrants.contains ⟨n + 1⟩ = false := by
    rw [OrdMap.contains, hnew]
    rfl
  have hsize : (c.entrants.insert ⟨n + 1⟩ (Fin.ofNat maxTableSeats n)).size = n + 1 := by
    have herase := OrdMap.size_erase (OrdMap.find_insert_self (m := c.entrants) (k := (⟨n + 1⟩ : PlayerId))
      (v := Fin.ofNat maxTableSeats n))
    rw [OrdMap.erase_insert hnew, hr.size] at herase
    exact herase.symm
  unfold TournamentController.register
  rw [if_neg (not_not_intro hr.status), if_neg (by rw [hentrants, hr.size]; omega), hcontains, hfree, Bool.or_false,
    if_neg Bool.false_ne_true, if_neg (by dsimp only; rw [hentrants, hseat]; omega)]
  refine ⟨hr.config, hr.status, hsize, ?_, hr.level, hr.elapsed⟩
  intro p s hf
  rw [OrdMap.find_insert] at hf
  split at hf
  · rename_i hp
    cases hf
    rw [hp, hseat]
    exact ⟨Nat.le_refl _, Nat.lt_succ_self n⟩
  · obtain ⟨hvalue, hval⟩ := hr.first p s hf
    omega

theorem play_append (c : TournamentController) (before after : List TournamentOp) :
    c.play (before ++ after) = (c.play before).play after := List.foldl_append

theorem firstSeats_registered (hr : Registered config 0 c) {n : Nat} (hn : n ≤ config.entrants) (hseats : n ≤ maxTableSeats) :
    Registered config n (c.play (firstSeats n)) := by
  induction n with
  | zero => exact hr
  | succ n ih =>
    have hlast : firstSeats (n + 1) = firstSeats n ++ [.register ⟨⟨n + 1⟩, Fin.ofNat maxTableSeats n⟩] := by
      unfold firstSeats
      rw [List.range_succ, List.map_append, List.map_singleton]
    rw [hlast, play_append]
    exact (ih (by omega) (by omega)).next (by omega) (by omega)

/-- A level or a break has just begun. -/
structure Begun (c : TournamentController) : Prop where
  scheduled : c.Scheduled
  playing : c.Playing
  elapsed : c.levelElapsedMillis = 0
  break_pos : c.status = .break → 0 < c.breakRemainingMillis

/-- The time up to the next mark crosses it, and no further. -/
theorem Begun.cross (hb : c.Begun) : c.tickBetweenHands (clock.room c) = boundary c ∧ (boundary c).Begun := by
  have hroom : 0 < clock.room c := by
    by_cases hs : c.status = .break
    · rw [room_break hs]
      exact hb.break_pos hs
    · rw [room_level hs, hb.elapsed]
      exact hb.scheduled.duration_pos
  have hspends : clock.Spends (clock.room c) c (clock.cross c) := by
    refine .crossing hroom (Nat.le_refl _) ?_
    rw [Nat.sub_self]
    exact .done _
  have htick := (tick_spends hb.scheduled hb.playing (clock.room c)).unique hspends
  refine ⟨htick, hb.scheduled.boundary, ?_, ?_, ?_⟩
  · have hplaying := (tick_ticked hb.playing (clock.room c)).playing
    rw [htick] at hplaying
    exact hplaying
  · unfold boundary
    split
    · exact hb.elapsed
    · rfl
  · unfold boundary
    by_cases hs : c.status = .break
    · rw [if_pos hs]
      intro h
      cases h
    · rw [if_neg hs]
      dsimp only
      split
      · intro _
        unfold u64Max
        omega
      · exact fun h => absurd h hs

/-- From a level to the next, over the break between them. -/
theorem Begun.next_level (hb : c.Begun) (hnext : c.levelIndex + 1 < c.config.levels.length) :
    ∃ ops, (c.play ops).Begun ∧ (c.play ops).levelIndex = c.levelIndex + 1 := by
  have hlevel : ∀ d : TournamentController, d.Begun → d.config = c.config → d.levelIndex = c.levelIndex → d.status ≠ .break →
      (d.tickBetweenHands (clock.room d)).Begun ∧ (d.tickBetweenHands (clock.room d)).levelIndex = c.levelIndex + 1 := by
    intro d hd hconfig hindex hs
    obtain ⟨htick, hbegun⟩ := hd.cross
    rw [htick]
    refine ⟨hbegun, ?_⟩
    unfold boundary
    rw [if_neg hs]
    dsimp only
    rw [hconfig, hindex]
    omega
  by_cases hs : c.status = .break
  · obtain ⟨htick, hbegun⟩ := hb.cross
    have hover : boundary c = { c with breakRemainingMillis := 0, status := .running } := by
      unfold boundary
      rw [if_pos hs]
    have hdone := hlevel (boundary c) hbegun (by rw [hover]) (by rw [hover]) (by rw [hover]; simp)
    refine ⟨[.tick (clock.room c), .tick (clock.room (boundary c))], ?_⟩
    show ((c.tickBetweenHands (clock.room c)).tickBetweenHands _).Begun ∧
      ((c.tickBetweenHands (clock.room c)).tickBetweenHands _).levelIndex = _
    rw [htick]
    exact hdone
  · exact ⟨[.tick (clock.room c)], hlevel c hb rfl rfl hs⟩

/-- Some run begins each level. -/
theorem reaches_level (hnew : TournamentController.new config = .ok c) {i : Nat} (hi : i < config.levels.length) :
    ∃ ops, (c.play ops).Begun ∧ (c.play ops).levelIndex = i := by
  have hf := fielded_new hnew
  obtain ⟨_, hentrants, _⟩ := validate_ok hf.valid
  induction i with
  | zero =>
    have hzero : Registered config 0 c := by
      unfold TournamentController.new at hnew
      rw [hf.valid] at hnew
      cases hnew
      exact ⟨rfl, rfl, rfl, fun p s h => (by cases h), rfl, rfl⟩
    have hall := firstSeats_registered hzero (Nat.le_refl config.entrants) hentrants
    refine ⟨firstSeats config.entrants ++ [.start], ?_⟩
    rw [play_append]
    have hstart : (c.play (firstSeats config.entrants)).start.2 =
        { c.play (firstSeats config.entrants) with status := .running } := by
      unfold TournamentController.start
      rw [if_neg (not_not_intro hall.status), if_neg (by rw [hall.size, hall.config]; simp)]
    show (c.play (firstSeats config.entrants)).start.2.Begun ∧ (c.play (firstSeats config.entrants)).start.2.levelIndex = 0
    have hsched := play_scheduled hnew (firstSeats config.entrants)
    rw [hstart]
    exact ⟨⟨⟨hsched.valid, hsched.level⟩, Or.inl rfl, hall.elapsed, fun h => (by cases h)⟩, hall.level⟩
  | succ i ih =>
    obtain ⟨ops, hbegun, hindex⟩ := ih (by omega)
    have hconfig : (c.play ops).config = c.config := (play_goesOn (new_scheduled hnew) ops).config
    obtain ⟨more, hmore, hlevel⟩ := hbegun.next_level (by rw [hindex, hconfig, hf.configured]; exact hi)
    refine ⟨ops ++ more, ?_⟩
    rw [play_append]
    exact ⟨hmore, hlevel.trans (by rw [hindex])⟩

/-! ## Every run -/

/-- In no run does anything in force fall, exactly when no step of the schedule lowers what follows a rise. -/
theorem never_down_iff (hvalid : config.validate = .ok ()) : NeverDown config ↔ config.StepsUp := by
  have hnew : ∃ c, TournamentController.new config = .ok c := by
    unfold TournamentController.new
    rw [hvalid]
    exact ⟨_, rfl⟩
  constructor
  · intro hnever
    obtain ⟨c, hc⟩ := hnew
    refine List.isChain_iff_getElem.mpr ?_
    intro i hi
    obtain ⟨ops, hbegun, hindex⟩ := reaches_level hc (show i < config.levels.length by omega)
    have hconfig : (c.play ops).config = { config with joinCode := "" } :=
      (play_goesOn (new_scheduled hc) ops).config.trans (fielded_new hc).configured
    obtain ⟨more, hmore, hlevel⟩ := hbegun.next_level (by rw [hindex, hconfig]; exact hi)
    have hconfig' : ((c.play ops).play more).config = { config with joinCode := "" } :=
      (play_goesOn hbegun.scheduled more).config.trans hconfig
    have hup := hnever c hc ops more
    rw [hbegun.scheduled.blinds_eq hbegun.scheduled.level, hmore.scheduled.blinds_eq hmore.scheduled.level] at hup
    refine steps_of_atMost ?_
    simpa only [hconfig, hconfig', hindex, hlevel] using hup
  · intro hsteps c hc ops more
    have hsched := play_scheduled hc ops
    have hgoes := play_goesOn hsched more
    have hconfig : (c.play ops).config = { config with joinCode := "" } :=
      (play_goesOn (new_scheduled hc) ops).config.trans (fielded_new hc).configured
    have hlast := hgoes.within hsched.level
    rw [hsched.blinds_eq hsched.level, (hgoes.scheduled hsched).blinds_eq (hgoes.scheduled hsched).level]
    rw [hconfig] at hlast
    have hmono := levels_mono hvalid hsteps hgoes.rises (Nat.lt_of_le_of_lt hgoes.rises hlast) hlast
    simpa only [hconfig, hgoes.config] using hmono

theorem never_down_two_levels : twoLevels.validate = .ok () ∧ (NeverDown twoLevels ↔ twoLevels.StepsUp) := by
  have hvalid : twoLevels.validate = .ok () := by decide +kernel
  exact ⟨hvalid, never_down_iff hvalid⟩

/-- The second level doubles the small blind and lowers the big one. -/
def fallingBlinds : TournamentConfig := { twoLevels with startingStack := 200, levels := [⟨1, 10, 0, 60, 0⟩, ⟨2, 4, 0, 60, 0⟩] }

/-- It is accepted all the same, and its big blind falls. -/
theorem falling_blinds_accepted : fallingBlinds.validate = .ok () ∧ ¬ NeverDown fallingBlinds := by
  refine ⟨by decide +kernel, ?_⟩
  intro hnever
  have hfalls : (TournamentController.new fallingBlinds).toOption.map (fun c =>
      decide ((c.play twoStart).currentBlinds.AtMost ((c.play twoStart).play [.tick 60000]).currentBlinds)) = some false := by
    decide +kernel
  cases hnew : TournamentController.new fallingBlinds with
  | error e =>
    rw [hnew] at hfalls
    cases hfalls
  | ok c =>
    rw [hnew] at hfalls
    exact of_decide_eq_false (Option.some.inj hfalls) (hnever c hnew twoStart [.tick 60000])

end TournamentController

end OpenFelt
