/-
  OpenFelt.Game.PotLayers — what `build_pots` makes of any contributions
  (`src/game/multiway.rs`).

  Its layers are products in `u32`: it answers when they fit (`checkedBuildPots`), and then
  with one pot for each level that two or more contributors reach, and the lead of a
  contributor alone on top (`potsBuilt`). They fit whenever the contributions' sum does
  (`layersFit_of_sum`). What a contributor can win is everybody's chips up to the lesser
  of its own and the largest of the others' (`eligible_pots_sum`).
-/

import OpenFelt.Game.Pots

namespace OpenFelt

variable {contributions : List Contribution} {previous level : Nat} {levels : List Nat} {build : PotBuild}

/-! ## The specification -/

/-- The greatest contribution below a level; with none, zero. -/
def levelBelow (contributions : List Contribution) (level : Nat) : Nat :=
  ((amounts contributions).filter fun amount => amount < level).foldr max 0

/-- A level's pot: the step up to it from all who reach it, for those of them who have not folded. -/
def potAt (contributions : List Contribution) (level : Nat) : Pot where
  amount := (level - levelBelow contributions level) * (reaching contributions level).length
  eligible := ((reaching contributions level).filter (·.eligible)).map (·.seat)

/-- Nobody else reaches the contributor's level. -/
structure AloneOnTop (contributions : List Contribution) (top : Contribution) : Prop where
  mem : top ∈ contributions
  positive : 0 < top.amount
  others : ∀ e ∈ contributions, e.seat ≠ top.seat → e.amount < top.amount

/-- The largest of the others' contributions. -/
def secondLargest (contributions : List Contribution) (top : Contribution) : Nat :=
  ((contributions.filter fun e => e.seat ≠ top.seat).map (·.amount)).foldr max 0

/-- The pots and returns that the contributions call for. -/
structure PotsOf (contributions : List Contribution) (build : PotBuild) : Prop where
  /-- One pot for each level that two contributors reach, in increasing order. -/
  pots : ∃ shared : List Nat, shared.Pairwise (· < ·) ∧
    (∀ l, l ∈ shared ↔ 0 < l ∧ l ∈ amounts contributions ∧ 2 ≤ (reaching contributions l).length) ∧
    build.pots = shared.map (potAt contributions)
  /-- The one on top gets back what nobody matched. -/
  lead : ∀ top, AloneOnTop contributions top → build.returned = [⟨top.seat, top.amount - secondLargest contributions top⟩]
  matched : (∀ top, ¬ AloneOnTop contributions top) → build.returned = []
  total : build.total = (amounts contributions).sum
  nested : build.pots.Pairwise fun lower upper => upper.eligible ⊆ lower.eligible

/-- No layer is more than a `u32` holds. -/
def LayersFit (contributions : List Contribution) : Prop :=
  ∀ level ∈ amounts contributions, (level - levelBelow contributions level) * (reaching contributions level).length ≤ u32Max

/-- `build_pots` with its `u32` arithmetic: no answer where a product overflows. -/
def checkedBuildPots (contributions : List Contribution) : Option PotBuild :=
  if layersInRange contributions 0 (potLevels contributions) then some (buildPots contributions) else none

/-! ## Levels from the ground up -/

theorem foldr_max_le {l : List Nat} {bound : Nat} : l.foldr max 0 ≤ bound ↔ ∀ x ∈ l, x ≤ bound := by
  induction l with
  | nil => simp
  | cons x l ih => simp [ih]

theorem le_foldr_max {l : List Nat} {x : Nat} (h : x ∈ l) : x ≤ l.foldr max 0 := foldr_max_le.mp (Nat.le_refl _) x h

/-- The levels above `previous`, none left out. -/
structure Ladder (contributions : List Contribution) (previous : Nat) (levels : List Nat) : Prop where
  sorted : (previous :: levels).Pairwise (· < ·)
  reached : ∀ l ∈ levels, l ∈ amounts contributions
  all : ∀ x ∈ amounts contributions, previous < x → x ∈ levels
  ground : previous = 0 ∨ previous ∈ amounts contributions

theorem ladder_potLevels (contributions : List Contribution) : Ladder contributions 0 (potLevels contributions) :=
  ⟨potLevels_sorted, fun _ hl => (mem_potLevels.mp hl).2, fun _ hx hpos => mem_potLevels.mpr ⟨hpos, hx⟩, Or.inl rfl⟩

theorem Ladder.up (h : Ladder contributions previous (level :: levels)) : Ladder contributions level levels := by
  obtain ⟨hfloor, hrest⟩ := List.pairwise_cons.mp h.sorted
  refine ⟨hrest, fun l hl => h.reached l (List.mem_cons_of_mem _ hl), ?_, Or.inr (h.reached level List.mem_cons_self)⟩
  intro x hx hlt
  have habove := h.all x hx (Nat.lt_trans (hfloor level List.mem_cons_self) hlt)
  rcases List.mem_cons.mp habove with rfl | hlater
  · exact absurd hlt (Nat.lt_irrefl _)
  · exact hlater

theorem Ladder.levelBelow_eq (h : Ladder contributions previous (level :: levels)) :
    levelBelow contributions level = previous := by
  obtain ⟨hfloor, hrest⟩ := List.pairwise_cons.mp h.sorted
  have hlt := hfloor level List.mem_cons_self
  refine Nat.le_antisymm (foldr_max_le.mpr ?_) ?_
  · intro x hx
    obtain ⟨hmem, hbelow⟩ := List.mem_filter.mp hx
    have hbelow : x < level := of_decide_eq_true hbelow
    by_contra hgt
    rcases List.mem_cons.mp (h.all x hmem (by omega)) with rfl | hlater
    · exact absurd hbelow (Nat.lt_irrefl _)
    · have := (List.pairwise_cons.mp hrest).1 x hlater
      omega
  · rcases h.ground with rfl | hmem
    · exact Nat.zero_le _
    · exact le_foldr_max (List.mem_filter.mpr ⟨hmem, decide_eq_true hlt⟩)

theorem reaching_pos (h : level ∈ amounts contributions) : 0 < (reaching contributions level).length := by
  obtain ⟨entry, hentry, he⟩ := List.mem_map.mp h
  exact List.length_pos_of_mem (List.mem_filter.mpr ⟨hentry, decide_eq_true (Nat.le_of_eq he.symm)⟩)

/-- What a level gives back: the lead of the only contributor who reaches it. -/
def leadAt (contributions : List Contribution) (level : Nat) : List ReturnedExcess :=
  (reaching contributions level).map fun only => ⟨only.seat, level - levelBelow contributions level⟩

theorem buildLayers_eq (h : Ladder contributions previous levels) : buildLayers contributions previous levels =
    ⟨(levels.filter fun l => 2 ≤ (reaching contributions l).length).map (potAt contributions),
      (levels.filter fun l => (reaching contributions l).length = 1).flatMap (leadAt contributions)⟩ := by
  induction levels generalizing previous with
  | nil => rfl
  | cons level levels ih =>
    have hbelow := h.levelBelow_eq
    have hlt : previous < level := (List.pairwise_cons.mp h.sorted).1 level List.mem_cons_self
    have hpos := reaching_pos (h.reached level List.mem_cons_self)
    obtain ⟨pots, returned, hb, hcase⟩ := buildLayers_cons contributions previous level levels
    rw [hb, ih h.up]
    rcases hcase with ⟨rfl, only, hr, rfl⟩ | ⟨rfl, hmany, _, rfl⟩ | ⟨_, _, hzero⟩
    · rw [List.filter_cons_of_neg (by simp [hr]), List.filter_cons_of_pos (by simp [hr]), List.flatMap_cons]
      simp only [leadAt, hr, hbelow, List.map_cons, List.map_nil, Nat.mul_one, List.nil_append]
    · have htwo : 2 ≤ (reaching contributions level).length := by omega
      rw [List.filter_cons_of_pos (by simpa using htwo), List.filter_cons_of_neg (by simpa using hmany), List.map_cons]
      simp only [potAt, hbelow, List.cons_append, List.nil_append]
    · rcases Nat.mul_eq_zero.mp hzero with h0 | h0 <;> omega

/-! ## The one on top -/

theorem AloneOnTop.reaching_eq {top : Contribution} (hn : (contributions.map (·.seat)).Nodup) (h : AloneOnTop contributions top) :
    reaching contributions top.amount = [top] := by
  have hsame : ∀ e ∈ contributions, decide (top.amount ≤ e.amount) = (e == top) := by
    intro e he
    by_cases heq : e = top
    · simp [heq]
    · have hseat : e.seat ≠ top.seat := fun hs => heq (List.inj_on_of_nodup_map hn he h.mem hs)
      have hless := h.others e he hseat
      rw [beq_eq_false_iff_ne.mpr heq, decide_eq_false (by omega)]
  rw [reaching, List.filter_congr hsame, List.filter_beq, List.count_eq_one_of_mem (List.Nodup.of_map _ hn) h.mem,
    List.replicate_one]

/-- A level reached by one contributor is that contributor's, alone on top. -/
theorem aloneOnTop_of_one (hmem : level ∈ amounts contributions) (hpos : 0 < level)
    (hone : (reaching contributions level).length = 1) : ∃ top, AloneOnTop contributions top ∧ top.amount = level := by
  obtain ⟨only, honly⟩ := List.length_eq_one_iff.mp hone
  have hreach : ∀ e ∈ contributions, level ≤ e.amount → e = only := by
    intro e he hle
    have hin : e ∈ reaching contributions level := List.mem_filter.mpr ⟨he, decide_eq_true hle⟩
    rw [honly] at hin
    exact List.mem_singleton.mp hin
  obtain ⟨entry, hentry, he⟩ := List.mem_map.mp hmem
  have hentry_only : entry = only := hreach entry hentry (Nat.le_of_eq he.symm)
  subst hentry_only
  refine ⟨entry, ⟨hentry, he ▸ hpos, ?_⟩, he⟩
  intro e hin hseat
  by_contra hge
  exact hseat (congrArg Contribution.seat (hreach e hin (by omega)))

theorem AloneOnTop.unique {top top' : Contribution} (hn : (contributions.map (·.seat)).Nodup) (h : AloneOnTop contributions top)
    (h' : AloneOnTop contributions top') : top = top' := by
  by_contra hne
  have hseat : top.seat ≠ top'.seat := fun hs => hne (List.inj_on_of_nodup_map hn h.mem h'.mem hs)
  have hless := h.others top' h'.mem hseat.symm
  have hmore := h'.others top h.mem hseat
  omega

theorem AloneOnTop.levelBelow_eq {top : Contribution} (hn : (contributions.map (·.seat)).Nodup)
    (h : AloneOnTop contributions top) :
    levelBelow contributions top.amount = secondLargest contributions top := by
  have hsame : ∀ e ∈ contributions, decide (e.amount < top.amount) = decide (e.seat ≠ top.seat) := by
    intro e he
    refine decide_eq_decide.mpr ⟨?_, h.others e he⟩
    intro hlt hs
    rw [List.inj_on_of_nodup_map hn he h.mem hs] at hlt
    exact absurd hlt (Nat.lt_irrefl _)
  unfold levelBelow secondLargest amounts
  rw [List.filter_map]
  exact congrArg (fun l => (l.map (·.amount)).foldr max 0) (List.filter_congr hsame)

/-- The levels of a sole contributor: at most one, that of the one on top. -/
theorem sole_levels (hn : (contributions.map (·.seat)).Nodup) {top : Contribution} (h : AloneOnTop contributions top) :
    ((potLevels contributions).filter fun l => (reaching contributions l).length = 1) = [top.amount] := by
  have hsorted := (List.pairwise_cons.mp (@potLevels_sorted contributions)).2
  refine (hsorted.filter _).eq_of_mem_iff (List.pairwise_singleton (· < ·) top.amount) ?_
  intro l
  rw [List.mem_singleton, List.mem_filter, mem_potLevels, decide_eq_true_eq]
  constructor
  · rintro ⟨⟨hpos, hmem⟩, hone⟩
    obtain ⟨top', htop', rfl⟩ := aloneOnTop_of_one hmem hpos hone
    rw [h.unique hn htop']
  · rintro rfl
    exact ⟨⟨h.positive, List.mem_map_of_mem h.mem⟩, by rw [h.reaching_eq hn]; rfl⟩

/-! ## What is built -/

theorem layersFit_iff : LayersFit contributions ↔ layersInRange contributions 0 (potLevels contributions) = true := by
  have hfrom : ∀ (levels : List Nat) (previous : Nat), Ladder contributions previous levels →
      (layersInRange contributions previous levels = true ↔ ∀ level ∈ levels,
        (level - levelBelow contributions level) * (reaching contributions level).length ≤ u32Max) := by
    intro levels
    induction levels with
    | nil => intro previous _; simp [layersInRange]
    | cons level levels ih =>
      intro previous h
      have hlt : previous < level := (List.pairwise_cons.mp h.sorted).1 level List.mem_cons_self
      rw [List.forall_mem_cons, h.levelBelow_eq, ← ih level h.up, layersInRange, Bool.and_eq_true, Bool.and_eq_true,
        decide_eq_true_eq]
      exact ⟨fun hr => ⟨of_decide_eq_true hr.1.2, hr.2⟩, fun hr => ⟨⟨Nat.le_of_lt hlt, decide_eq_true hr.1⟩, hr.2⟩⟩
  rw [hfrom _ 0 (ladder_potLevels contributions)]
  refine ⟨fun hf level hl => hf level (mem_potLevels.mp hl).2, ?_⟩
  intro hf level hl
  by_cases hpos : 0 < level
  · exact hf level (mem_potLevels.mpr ⟨hpos, hl⟩)
  · have hzero : level - levelBelow contributions level = 0 := by omega
    rw [hzero, Nat.zero_mul]
    exact Nat.zero_le _

/-- Contributions whose sum fits have layers that fit. -/
theorem layersFit_of_sum (hfit : (amounts contributions).sum ≤ u32Max) : LayersFit contributions :=
  layersFit_iff.mpr (layersInRange_of_fits hfit)

theorem reaching_antitone {lower upper : Nat} (h : lower ≤ upper) :
    reaching contributions upper ⊆ reaching contributions lower := by
  intro e he
  obtain ⟨hmem, hle⟩ := List.mem_filter.mp he
  exact List.mem_filter.mpr ⟨hmem, decide_eq_true (Nat.le_trans h (of_decide_eq_true hle))⟩

theorem potAt_nested {lower upper : Nat} (h : lower < upper) :
    (potAt contributions upper).eligible ⊆ (potAt contributions lower).eligible := by
  intro seat hseat
  obtain ⟨e, he, rfl⟩ := List.mem_map.mp hseat
  obtain ⟨hreach, hin⟩ := List.mem_filter.mp he
  exact List.mem_map_of_mem (List.mem_filter.mpr ⟨reaching_antitone (Nat.le_of_lt h) hreach, hin⟩)

theorem buildPots_potsOf (hn : (contributions.map (·.seat)).Nodup) : PotsOf contributions (buildPots contributions) := by
  have heq := buildLayers_eq (ladder_potLevels contributions)
  have hsorted := (List.pairwise_cons.mp (@potLevels_sorted contributions)).2
  refine ⟨⟨_, hsorted.filter _, ?_, congrArg PotBuild.pots heq⟩, ?_, ?_, buildPots_sum contributions, ?_⟩
  · intro l
    rw [List.mem_filter, mem_potLevels, decide_eq_true_eq, and_assoc]
  · intro top htop
    rw [buildPots, heq]
    dsimp only
    rw [sole_levels hn htop]
    simp only [List.flatMap_cons, List.flatMap_nil, List.append_nil, leadAt, htop.reaching_eq hn, List.map_cons, List.map_nil,
      htop.levelBelow_eq hn]
  · intro hnone
    rw [buildPots, heq]
    dsimp only
    rw [List.filter_eq_nil_iff.mpr]
    · rfl
    · intro l hl hone
      obtain ⟨hpos, hmem⟩ := mem_potLevels.mp hl
      obtain ⟨top, htop, _⟩ := aloneOnTop_of_one hmem hpos (of_decide_eq_true hone)
      exact hnone top htop
  · rw [buildPots, heq]
    exact List.pairwise_map.mpr ((hsorted.filter _).imp potAt_nested)

/-- Whenever no layer overflows, `build_pots` answers with the pots and returns that the contributions call for. -/
theorem potsBuilt (hn : (contributions.map (·.seat)).Nodup) (hfit : LayersFit contributions) :
    ∃ build, checkedBuildPots contributions = some build ∧ PotsOf contributions build :=
  ⟨buildPots contributions, if_pos (layersFit_iff.mp hfit), buildPots_potsOf hn⟩

/-- A folded contributor between three that go on, the last of them alone on top. -/
def foldedBetween : List Contribution := [⟨0, 40, true⟩, ⟨1, 100, false⟩, ⟨2, 200, true⟩, ⟨3, 260, true⟩]

theorem potsBuilt_folded_between : (foldedBetween.map (·.seat)).Nodup ∧ LayersFit foldedBetween ∧
    ∃ build, checkedBuildPots foldedBetween = some build ∧ PotsOf foldedBetween build := by
  have hn : (foldedBetween.map (·.seat)).Nodup := by decide
  have hfit : LayersFit foldedBetween := layersFit_of_sum (by decide)
  exact ⟨hn, hfit, potsBuilt hn hfit⟩

/-- Two contributions that a `u32` holds, and whose layer it does not. -/
def halvesMatched : List Contribution := [⟨0, 2 ^ 31, true⟩, ⟨1, 2 ^ 31, true⟩]

theorem halves_matched_overflow : (halvesMatched.map (·.seat)).Nodup ∧ (∀ e ∈ halvesMatched, e.amount ≤ u32Max) ∧
    ¬ ∃ build, checkedBuildPots halvesMatched = some build ∧ PotsOf halvesMatched build := by
  refine ⟨by decide, by decide, ?_⟩
  intro ⟨build, hbuild, _⟩
  have hnone : checkedBuildPots halvesMatched = none := by decide
  rw [hnone] at hbuild
  cases hbuild

/-! ## What one contributor can win -/

/-- Up to a level the layers hold what the contributions come to when cut off there. -/
theorem ladder_sum (h : Ladder contributions previous levels) (cap : Nat) :
    ((levels.filter fun l => l ≤ cap).map fun l => (potAt contributions l).amount).sum =
      (Layers.layers ((amounts contributions).map fun amount => min amount cap) previous
        (levels.filter fun l => l ≤ cap)).sum := by
  induction levels generalizing previous with
  | nil => rfl
  | cons level levels ih =>
    by_cases hle : level ≤ cap
    · have hcount : ((amounts contributions).map fun amount => min amount cap).countP (level ≤ ·) =
          (reaching contributions level).length := by
        rw [reaching_length, List.countP_map]
        refine List.countP_congr fun amount _ => ?_
        simp only [Function.comp_apply, decide_eq_true_eq]
        omega
      rw [List.filter_cons_of_pos (by simpa using hle), List.map_cons, List.sum_cons, Layers.layers, List.sum_cons, ih h.up,
        hcount, potAt, h.levelBelow_eq]
    · have hnone : (level :: levels).filter (fun l => l ≤ cap) = [] := by
        refine List.filter_eq_nil_iff.mpr ?_
        intro l hl hcap
        have hcap : l ≤ cap := of_decide_eq_true hcap
        rcases List.mem_cons.mp hl with rfl | hlater
        · exact hle hcap
        · have := (List.pairwise_cons.mp (List.pairwise_cons.mp h.sorted).2).1 l hlater
          omega
      rw [hnone]
      rfl

theorem capped_sum {cap : Nat} (hcap : cap = 0 ∨ cap ∈ amounts contributions) :
    (((potLevels contributions).filter fun l => l ≤ cap).map fun l => (potAt contributions l).amount).sum =
      ((amounts contributions).map fun amount => min amount cap).sum := by
  rw [ladder_sum (ladder_potLevels contributions), Layers.layers_sum]
  · simp only [Nat.sub_zero, List.map_id_fun', id_eq]
  · exact potLevels_sorted.sublist (List.Sublist.cons_cons 0 List.filter_sublist)
  · intro x hx hpos
    obtain ⟨amount, hamount, rfl⟩ := List.mem_map.mp hx
    refine List.mem_filter.mpr ⟨mem_potLevels.mpr ⟨hpos, ?_⟩, decide_eq_true (Nat.min_le_right _ _)⟩
    by_cases hle : amount ≤ cap
    · rw [Nat.min_eq_left hle]
      exact hamount
    · rw [Nat.min_eq_right (by omega)]
      refine hcap.resolve_left ?_
      omega

theorem foldr_max_mem (l : List Nat) : l.foldr max 0 = 0 ∨ l.foldr max 0 ∈ l := by
  induction l with
  | nil => exact Or.inl rfl
  | cons x l ih =>
    rw [List.foldr_cons]
    rcases Nat.le_total x (l.foldr max 0) with hle | hle
    · rw [Nat.max_eq_right hle]
      exact ih.imp id fun hmem => List.mem_cons_of_mem x hmem
    · rw [Nat.max_eq_left hle]
      exact Or.inr List.mem_cons_self

theorem secondLargest_mem (contributions : List Contribution) (top : Contribution) :
    secondLargest contributions top = 0 ∨ secondLargest contributions top ∈ amounts contributions := by
  refine (foldr_max_mem _).imp id ?_
  intro hmem
  obtain ⟨e, he, heq⟩ := List.mem_map.mp hmem
  exact List.mem_map.mpr ⟨e, (List.mem_filter.mp he).1, heq⟩

/-- A contributor shares a level with another exactly up to what both have put in. -/
theorem shared_iff (hn : (contributions.map (·.seat)).Nodup) {a : Contribution} (ha : a ∈ contributions) (hpos : 0 < level) :
    2 ≤ (reaching contributions level).length ∧ level ≤ a.amount ↔ level ≤ min a.amount (secondLargest contributions a) := by
  have hnodup : (reaching contributions level).Nodup := (List.Nodup.of_map _ hn).filter _
  rw [Nat.le_min, and_comm]
  refine and_congr_right fun hle => ?_
  have hin : a ∈ reaching contributions level := List.mem_filter.mpr ⟨ha, decide_eq_true hle⟩
  constructor
  · intro htwo
    -- somebody else reaches it
    obtain ⟨e, he, hne⟩ : ∃ e ∈ reaching contributions level, e ≠ a := by
      by_contra hnone
      have hall : reaching contributions level ⊆ [a] := by
        intro e he
        by_contra hne
        exact hnone ⟨e, he, fun h => hne (List.mem_singleton.mpr h)⟩
      have hcount := (List.subperm_of_subset hnodup hall).length_le
      rw [List.length_singleton] at hcount
      omega
    obtain ⟨hmem, hreach⟩ := List.mem_filter.mp he
    have hseat : e.seat ≠ a.seat := fun hs => hne (List.inj_on_of_nodup_map hn hmem ha hs)
    have hmax : e.amount ≤ secondLargest contributions a :=
      le_foldr_max (List.mem_map_of_mem (List.mem_filter.mpr ⟨hmem, decide_eq_true hseat⟩))
    exact Nat.le_trans (of_decide_eq_true hreach) hmax
  · intro hsecond
    rcases foldr_max_mem ((contributions.filter fun e => e.seat ≠ a.seat).map (·.amount)) with hzero | hmem
    · rw [secondLargest, hzero] at hsecond
      omega
    · obtain ⟨e, he, heq⟩ := List.mem_map.mp hmem
      obtain ⟨hmem, hseat⟩ := List.mem_filter.mp he
      have hreach : e ∈ reaching contributions level :=
        List.mem_filter.mpr ⟨hmem, decide_eq_true (by rw [heq]; exact hsecond)⟩
      have hne : e ≠ a := fun h => of_decide_eq_true hseat (congrArg Contribution.seat h)
      have hsub : [a, e] ⊆ reaching contributions level := by
        intro x hx
        simp only [List.mem_cons, List.not_mem_nil, or_false] at hx
        rcases hx with rfl | rfl
        · exact hin
        · exact hreach
      have hpair : [a, e].Nodup := by simpa using hne.symm
      exact (List.subperm_of_subset hpair hsub).length_le

/-- The pots a contributor is in for hold, of everybody's chips, those that two reach with it. -/
theorem eligible_pots_sum (hn : (contributions.map (·.seat)).Nodup) {a : Contribution} (ha : a ∈ contributions)
    (hin : a.eligible = true) :
    (((buildPots contributions).pots.filter fun pot => pot.eligible.contains a.seat).map (·.amount)).sum =
      ((amounts contributions).map fun amount => min amount (min a.amount (secondLargest contributions a))).sum := by
  have hcap : min a.amount (secondLargest contributions a) = 0 ∨
      min a.amount (secondLargest contributions a) ∈ amounts contributions := by
    rcases Nat.le_total a.amount (secondLargest contributions a) with hle | hle
    · rw [Nat.min_eq_left hle]
      exact Or.inr (List.mem_map_of_mem ha)
    · rw [Nat.min_eq_right hle]
      exact secondLargest_mem contributions a
  have hmember : ∀ l, (potAt contributions l).eligible.contains a.seat = decide (l ≤ a.amount) := by
    intro l
    refine Bool.eq_iff_iff.mpr ?_
    rw [List.contains_iff_mem, decide_eq_true_eq, potAt]
    constructor
    · intro hmem
      obtain ⟨e, he, hseat⟩ := List.mem_map.mp hmem
      obtain ⟨hreach, _⟩ := List.mem_filter.mp he
      obtain ⟨hmem, hle⟩ := List.mem_filter.mp hreach
      rw [← List.inj_on_of_nodup_map hn hmem ha hseat]
      exact of_decide_eq_true hle
    · intro hle
      exact List.mem_map_of_mem (List.mem_filter.mpr ⟨List.mem_filter.mpr ⟨ha, decide_eq_true hle⟩, hin⟩)
  have hlevels : ∀ l ∈ potLevels contributions, (decide (l ≤ a.amount) && decide (2 ≤ (reaching contributions l).length)) =
      decide (l ≤ min a.amount (secondLargest contributions a)) := by
    intro l hl
    rw [← Bool.decide_and]
    exact decide_eq_decide.mpr (and_comm.trans (shared_iff hn ha (mem_potLevels.mp hl).1))
  rw [← capped_sum hcap, buildPots, buildLayers_eq (ladder_potLevels contributions)]
  dsimp only
  rw [List.filter_map, List.map_map, List.filter_filter]
  have hboth : ∀ l ∈ potLevels contributions, (((fun pot : Pot => pot.eligible.contains a.seat) ∘ potAt contributions) l &&
      decide (2 ≤ (reaching contributions l).length)) = decide (l ≤ min a.amount (secondLargest contributions a)) := by
    intro l hl
    rw [Function.comp_apply, hmember l]
    exact hlevels l hl
  rw [List.filter_congr hboth]
  rfl

end OpenFelt
