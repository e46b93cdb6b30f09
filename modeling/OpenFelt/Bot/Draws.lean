/-
  OpenFelt.Bot.Draws — the draws of two hole cards and a board (`src/bot/draws.rs`).

  Translation. The sets of ranks are lists, asked only for membership. The flags of the
  ten windows are set one window after the other, as in the source.

  The rules: five following ranks make a straight, the ace low or high (`StraightMade`,
  `straightMade_iff`), and a rank not held completes one it is part of (`Completes`).
-/

import OpenFelt.Game.PokerOrder
import Mathlib.Data.Finset.Card

namespace OpenFelt

structure DrawInfo where
  flushDraw : Bool
  oesd : Bool
  gutshot : Bool
  overcards : Nat
  backdoorFlush : Bool
  backdoorStraight : Bool
  deriving DecidableEq, Repr

namespace DrawInfo

def default : DrawInfo := ⟨false, false, false, 0, false, false⟩

end DrawInfo

/-! ## Detecting -/

def detectFlushDraws (hole board : List Card) (info : DrawInfo) : DrawInfo :=
  [Suit.spades, .hearts, .diamonds, .clubs].foldl (fun info suit =>
    let holeCount := suitCount hole suit
    let total := holeCount + suitCount board suit
    if holeCount = 0 then info
    else if total = 4 then { info with flushDraw := true }
    else if total = 3 && board.length = 3 then { info with backdoorFlush := true }
    else info) info

/-- The rank values of the cards, with one for an ace. -/
def rankValues (cards : List Card) : List Nat :=
  cards.flatMap fun card => if card.rank.value = 14 then [14, 1] else [card.rank.value]

/-- What five following values from `base` say: all held, open at one end with the other end a rank, or with one gap. -/
def detectWindow (rankSet holeRankValues : List Nat) (boardLen : Nat) (info : DrawInfo) (base : Nat) : DrawInfo :=
  let window := List.range' base 5
  let present := window.filter rankSet.contains
  let missing := window.filter fun v => !rankSet.contains v
  let holeInWindow := window.any holeRankValues.contains
  if present.length = 5 then
    info
  else
    let info :=
      if present.length = 4 && missing.length = 1 && holeInWindow then
        let gap := missing.headD 0
        if gap = base || gap = base + 4 then
          let isOpenEnded := if gap = base then decide (base + 5 ≤ 14) else decide (2 ≤ base)
          if isOpenEnded then { info with oesd := true } else { info with gutshot := true }
        else
          { info with gutshot := true }
      else
        info
    if present.length = 3 && boardLen = 3 && holeInWindow then { info with backdoorStraight := true } else info

def detectStraightDraws (hole board : List Card) (info : DrawInfo) : DrawInfo :=
  (List.range' 1 10).foldl (detectWindow (rankValues (hole ++ board)) (rankValues hole) board.length) info

def detectOvercards (hole board : List Card) (info : DrawInfo) : DrawInfo :=
  let maxBoardRank := (board.map (·.rank.value)).foldl max 0
  { info with overcards := (hole.filter fun card => maxBoardRank < card.rank.value).length }

def detectDraws (hole board : List Card) : DrawInfo :=
  if board.isEmpty then .default
  else detectOvercards hole board (detectStraightDraws hole board (detectFlushDraws hole board .default))

/-! ## The rules -/

/-- A rank stands for its value, and the ace for one too. -/
def Holds (ranks : List Rank) (v : Nat) : Prop := ∃ r ∈ ranks, r.value = v ∨ r = .ace ∧ v = 1

/-- Five following values from `base`. -/
def StraightRun (ranks : List Rank) (base : Nat) : Prop := ∀ v ∈ List.range' base 5, Holds ranks v

def StraightMade (ranks : List Rank) : Prop := ∃ base ∈ List.range' 1 10, StraightRun ranks base

/-- A rank not held fills a run that it is part of. -/
def CompletesAt (ranks : List Rank) (r : Rank) (base : Nat) : Prop :=
  r ∉ ranks ∧ (∃ v ∈ List.range' base 5, Holds [r] v) ∧ StraightRun (r :: ranks) base

def Completes (ranks : List Rank) (r : Rank) : Prop := ∃ base ∈ List.range' 1 10, CompletesAt ranks r base

/-! ## The flags -/

section windows
variable {rankSet holeRankValues : List Nat} {boardLen base : Nat} {info : DrawInfo}

/-- One value of the window is missing. -/
def oneMissing (present : Nat → Bool) (base : Nat) : Bool := ((List.range' base 5).filter present).length = 4

/-- It is at one end, and beyond the other end is a rank. -/
def openAt (present : Nat → Bool) (base : Nat) : Bool :=
  oneMissing present base && (!present base && base + 5 ≤ 14 || !present (base + 4) && 2 ≤ base)

theorem one_missing {present : Nat → Bool} {l : List Nat} (h : (l.filter present).length + 1 = l.length) :
    ∃ gap ∈ l, (l.filter fun v => !present v) = [gap] ∧ present gap = false ∧ ∀ v ∈ l, v ≠ gap → present v = true := by
  have hcount := List.length_eq_length_filter_add (l := l) present
  obtain ⟨gap, hgap⟩ := List.length_eq_one_iff.mp (show (l.filter fun v => !present v).length = 1 by omega)
  have hmem : ∀ v, v ∈ l ∧ (!present v) = true ↔ v = gap := by
    intro v
    have hiff : v ∈ l.filter (fun v => !present v) ↔ v ∈ l ∧ (!present v) = true := List.mem_filter
    rw [hgap, List.mem_singleton] at hiff
    exact hiff.symm
  obtain ⟨hin, hnot⟩ := (hmem gap).mpr rfl
  refine ⟨gap, hin, hgap, by simpa using hnot, ?_⟩
  intro v hv hne
  by_contra habsent
  exact hne ((hmem v).mp ⟨hv, by simpa using habsent⟩)

theorem mem_window {v base : Nat} : v ∈ List.range' base 5 ↔ base ≤ v ∧ v ≤ base + 4 := by
  rw [List.mem_range'_1]
  omega

theorem openAt_of_gap {present : Nat → Bool} {gap base : Nat} (hone : oneMissing present base = true) (hgap : present gap = false)
    (hrest : ∀ v ∈ List.range' base 5, v ≠ gap → present v = true) :
    openAt present base = (gap = base && base + 5 ≤ 14 || gap = base + 4 && 2 ≤ base) := by
  have hend : ∀ v ∈ List.range' base 5, (!present v) = decide (gap = v) := by
    intro v hv
    by_cases hv' : gap = v
    · rw [← hv', hgap]
      simp
    · rw [hrest v hv (Ne.symm hv')]
      simp [hv']
  rw [openAt, hone, Bool.true_and, hend base (mem_window.mpr ⟨Nat.le_refl _, by omega⟩),
    hend (base + 4) (mem_window.mpr ⟨by omega, Nat.le_refl _⟩)]

theorem detectWindow_flags (rankSet holeRankValues : List Nat) (boardLen : Nat) (info : DrawInfo) (base : Nat) :
    (detectWindow rankSet holeRankValues boardLen info base).oesd =
        (info.oesd || (List.range' base 5).any holeRankValues.contains && openAt rankSet.contains base) ∧
      (detectWindow rankSet holeRankValues boardLen info base).gutshot =
        (info.gutshot || (List.range' base 5).any holeRankValues.contains && oneMissing rankSet.contains base &&
          !openAt rankSet.contains base) ∧
      (detectWindow rankSet holeRankValues boardLen info base).flushDraw = info.flushDraw := by
  by_cases hfour : ((List.range' base 5).filter rankSet.contains).length = 4
  · obtain ⟨gap, hin, hmissing, hgap, hrest⟩ := one_missing (show ((List.range' base 5).filter rankSet.contains).length + 1 = _ by
      rw [hfour, List.length_range'])
    have hone : oneMissing rankSet.contains base = true := by simp [oneMissing, hfour]
    have hopen := openAt_of_gap hone hgap hrest
    rw [hone, hopen]
    unfold detectWindow
    dsimp only
    rw [hfour, hmissing]
    cases (List.range' base 5).any holeRankValues.contains with
    | false => simp
    | true =>
      by_cases hlow : gap = base
      · by_cases hhigh : base + 5 ≤ 14 <;> simp [hlow, hhigh]
      · by_cases htop : gap = base + 4
        · by_cases hhigh : 2 ≤ base <;> simp [htop, hhigh]
        · simp [hlow, htop]
  · have hone : oneMissing rankSet.contains base = false := by simp [oneMissing, hfour]
    have hopen : openAt rankSet.contains base = false := by rw [openAt, hone, Bool.false_and]
    rw [hone, hopen]
    unfold detectWindow
    simp only [hfour, decide_false, Bool.false_and, Bool.and_false, Bool.or_false, Bool.false_eq_true, if_false]
    split
    · simp
    · split <;> simp

end windows

/-- Steps that each set a flag or leave it, one after the other. -/
theorem foldl_flag {α σ : Type} {step : σ → α → σ} {flag : σ → Bool} {sets : α → Bool}
    (h : ∀ s a, flag (step s a) = (flag s || sets a)) (l : List α) (s : σ) : flag (l.foldl step s) = (flag s || l.any sets) := by
  induction l generalizing s with
  | nil => simp
  | cons a rest ih => rw [List.foldl_cons, ih, h, List.any_cons, Bool.or_assoc]

section detection
variable {hole board : List Card}

/-- A hole card is in a window that `sets` holds of. -/
def anyWindow (hole board : List Card) (sets : (Nat → Bool) → Nat → Bool) : Bool :=
  (List.range' 1 10).any fun base =>
    (List.range' base 5).any (rankValues hole).contains && sets (rankValues (hole ++ board)).contains base

theorem detectStraightDraws_flags (hole board : List Card) (info : DrawInfo) :
    (detectStraightDraws hole board info).oesd = (info.oesd || anyWindow hole board openAt) ∧
      (detectStraightDraws hole board info).gutshot =
        (info.gutshot || anyWindow hole board fun present base => oneMissing present base && !openAt present base) ∧
      (detectStraightDraws hole board info).flushDraw = info.flushDraw := by
  have hflags := detectWindow_flags (rankValues (hole ++ board)) (rankValues hole) board.length
  refine ⟨?_, ?_, ?_⟩
  · exact foldl_flag (fun info base => (hflags info base).1) _ info
  · refine foldl_flag (fun info base => ?_) _ info
    rw [(hflags info base).2.1, Bool.and_assoc]
  · have hkeeps : (detectStraightDraws hole board info).flushDraw = (info.flushDraw || (List.range' 1 10).any fun _ => false) :=
      foldl_flag (fun info base => by rw [(hflags info base).2.2, Bool.or_false]) _ info
    rw [hkeeps]
    simp

theorem detectFlushDraws_flags (hole board : List Card) (info : DrawInfo) :
    (detectFlushDraws hole board info).oesd = info.oesd ∧ (detectFlushDraws hole board info).gutshot = info.gutshot ∧
      (detectFlushDraws hole board info).flushDraw = (info.flushDraw ||
        [Suit.spades, .hearts, .diamonds, .clubs].any fun suit =>
          suitCount hole suit ≠ 0 && suitCount hole suit + suitCount board suit = 4) := by
  have hoesd : (detectFlushDraws hole board info).oesd =
      (info.oesd || [Suit.spades, .hearts, .diamonds, .clubs].any fun _ => false) := by
    refine foldl_flag (fun info suit => ?_) _ info
    dsimp only
    repeat' split
    all_goals simp
  have hgutshot : (detectFlushDraws hole board info).gutshot =
      (info.gutshot || [Suit.spades, .hearts, .diamonds, .clubs].any fun _ => false) := by
    refine foldl_flag (fun info suit => ?_) _ info
    dsimp only
    repeat' split
    all_goals simp
  refine ⟨by rw [hoesd]; simp, by rw [hgutshot]; simp, ?_⟩
  refine foldl_flag (fun info suit => ?_) _ info
  dsimp only
  by_cases hnone : suitCount hole suit = 0
  · simp [hnone]
  · by_cases hfour : suitCount hole suit + suitCount board suit = 4
    · simp [hnone, hfour]
    · rw [if_neg hnone, if_neg hfour]
      split <;> simp [hfour]

/-- What is detected of a board. -/
theorem detectDraws_flags (hboard : board ≠ []) :
    (detectDraws hole board).oesd = anyWindow hole board openAt ∧
      (detectDraws hole board).gutshot = anyWindow hole board
        (fun present base => oneMissing present base && !openAt present base) ∧
      (detectDraws hole board).flushDraw = [Suit.spades, .hearts, .diamonds, .clubs].any fun suit =>
        suitCount hole suit ≠ 0 && suitCount hole suit + suitCount board suit = 4 := by
  have hempty : board.isEmpty = false := by simpa using hboard
  obtain ⟨hoesd, hgutshot, hflush⟩ := detectStraightDraws_flags hole board (detectFlushDraws hole board .default)
  obtain ⟨hoesd', hgutshot', hflush'⟩ := detectFlushDraws_flags hole board .default
  unfold detectDraws detectOvercards
  rw [if_neg (by simp [hempty])]
  refine ⟨?_, ?_, ?_⟩
  · rw [hoesd, hoesd']
    rfl
  · rw [hgutshot, hgutshot']
    rfl
  · rw [hflush, hflush']
    rfl

end detection

/-! ## Windows and runs -/

section runs
variable {ranks : List Rank} {cards : List Card} {r s : Rank} {v w base : Nat}

theorem mem_rankValues : v ∈ rankValues cards ↔ Holds (cards.map (·.rank)) v := by
  have hone : ∀ r : Rank, v ∈ (if r.value = 14 then [14, 1] else [r.value]) ↔ r.value = v ∨ r = .ace ∧ v = 1 := by
    intro r
    cases r <;> simp [Rank.value, eq_comm]
  simp only [rankValues, List.mem_flatMap, hone, Holds, List.mem_map]
  constructor
  · rintro ⟨card, hcard, h⟩
    exact ⟨card.rank, ⟨card, hcard, rfl⟩, h⟩
  · rintro ⟨r, ⟨card, hcard, rfl⟩, h⟩
    exact ⟨card, hcard, h⟩

theorem contains_rankValues : (rankValues cards).contains v = true ↔ Holds (cards.map (·.rank)) v := by
  rw [List.contains_iff_mem, mem_rankValues]

theorem holds_cons : Holds (r :: ranks) v ↔ Holds [r] v ∨ Holds ranks v := by
  simp [Holds]

/-- Every value of a window is some rank's. -/
theorem exists_rank (hlow : 1 ≤ v) (hhigh : v ≤ 14) : ∃ r, Holds [r] v := by
  have hall : ∀ v ∈ List.range' 1 14, ∃ r ∈ Rank.all, r.value = v ∨ r = .ace ∧ v = 1 := by decide
  obtain ⟨r, -, h⟩ := hall v (by rw [List.mem_range'_1]; omega)
  exact ⟨r, r, List.mem_singleton_self r, h⟩

/-- A rank has two values only as the ace. -/
theorem holds_two (hv : Holds [r] v) (hw : Holds [r] w) : v = w ∨ v = 1 ∧ w = 14 ∨ v = 14 ∧ w = 1 := by
  obtain ⟨a, ha, hv⟩ := hv
  obtain ⟨b, hb, hw⟩ := hw
  obtain rfl := List.mem_singleton.mp ha
  obtain rfl := List.mem_singleton.mp hb
  rcases hv with rfl | ⟨rfl, rfl⟩
  · rcases hw with rfl | ⟨rfl, rfl⟩
    · exact Or.inl rfl
    · exact Or.inr (Or.inr ⟨rfl, rfl⟩)
  · rcases hw with rfl | ⟨-, rfl⟩
    · exact Or.inr (Or.inl ⟨rfl, rfl⟩)
    · exact Or.inl rfl

theorem mem_bases : base ∈ List.range' 1 10 ↔ 1 ≤ base ∧ base ≤ 10 := by
  rw [List.mem_range'_1]
  omega

/-- The rank of the one value that is missing completes the run. -/
theorem completesAt (hin : v ∈ List.range' base 5) (hmissing : ¬Holds ranks v)
    (hrest : ∀ w ∈ List.range' base 5, w ≠ v → Holds ranks w)
    (hr : Holds [r] v) : CompletesAt ranks r base := by
  refine ⟨?_, ⟨v, hin, hr⟩, ?_⟩
  · intro hmem
    obtain ⟨a, ha, hv⟩ := hr
    obtain rfl := List.mem_singleton.mp ha
    exact hmissing ⟨a, hmem, hv⟩
  · intro w hw
    rw [holds_cons]
    by_cases hwv : w = v
    · exact Or.inl (hwv ▸ hr)
    · exact Or.inr (hrest w hw hwv)

/-- A rank that completes a run fills its one gap. -/
theorem CompletesAt.gap (h : CompletesAt ranks r base) :
    ∃ v ∈ List.range' base 5, ¬Holds ranks v ∧ ∀ w ∈ List.range' base 5, w ≠ v → Holds ranks w := by
  obtain ⟨habsent, ⟨v, hin, hr⟩, hrun⟩ := h
  refine ⟨v, hin, ?_, ?_⟩
  · rintro ⟨a, ha, hv⟩
    obtain ⟨b, hb, hv'⟩ := hr
    obtain rfl := List.mem_singleton.mp hb
    have hab : a = b := by
      rcases hv with hv | ⟨rfl, rfl⟩
      · rcases hv' with hv' | ⟨rfl, rfl⟩
        · exact Rank.value_inj (hv.trans hv'.symm)
        · cases a <;> cases hv
      · rcases hv' with hv' | ⟨rfl, -⟩
        · cases b <;> cases hv'
        · rfl
    exact habsent (hab ▸ ha)
  · intro w hw hne
    rcases holds_cons.mp (hrun w hw) with hboth | hheld
    · rw [mem_window] at hin hw
      rcases holds_two hr hboth with heq | hends | hends
      · exact absurd heq.symm hne
      · omega
      · omega
    · exact hheld

section present
variable {present : Nat → Bool} (hpresent : ∀ v, present v = true ↔ Holds ranks v)
include hpresent

theorem absent_iff : present v = false ↔ ¬Holds ranks v := by
  rw [← hpresent, Bool.not_eq_true]

/-- A window with one value missing, and the rank that fills it. -/
theorem missing_rank (hbase : base ∈ List.range' 1 10) (hone : oneMissing present base = true) :
    ∃ gap ∈ List.range' base 5, ¬Holds ranks gap ∧ (∀ w ∈ List.range' base 5, w ≠ gap → Holds ranks w) ∧
      ∃ r, Holds [r] gap ∧ CompletesAt ranks r base := by
  have hfour : ((List.range' base 5).filter present).length = 4 := by simpa [oneMissing] using hone
  obtain ⟨gap, hin, -, hgap, hrest⟩ := one_missing (show ((List.range' base 5).filter present).length + 1 = _ by
    rw [hfour, List.length_range'])
  have hheld : ∀ w ∈ List.range' base 5, w ≠ gap → Holds ranks w := fun w hw hne => (hpresent w).mp (hrest w hw hne)
  have hmissing : ¬Holds ranks gap := (absent_iff hpresent).mp hgap
  rw [mem_bases] at hbase
  have hbounds := mem_window.mp hin
  obtain ⟨r, hr⟩ := exists_rank (v := gap) (by omega) (by omega)
  exact ⟨gap, hin, hmissing, hheld, r, hr, completesAt hin hmissing hheld hr⟩

theorem CompletesAt.oneMissing (h : CompletesAt ranks r base) : oneMissing present base = true := by
  obtain ⟨gap, hin, hmissing, hrest⟩ := h.gap
  have honly : (List.range' base 5).filter (fun v => !present v) = (List.range' base 5).filter (· == gap) := by
    refine List.filter_congr ?_
    intro v hv
    by_cases hgap : v = gap
    · rw [hgap, (absent_iff hpresent).mpr hmissing]
      simp
    · rw [(hpresent v).mpr (hrest v hv hgap)]
      simp [hgap]
  have hcount := List.length_eq_length_filter_add (l := List.range' base 5) present
  have hone : ((List.range' base 5).filter (· == gap)).length = 1 := by
    rw [← List.countP_eq_length_filter]
    exact List.count_eq_one_of_mem List.nodup_range' hin
  rw [honly, hone, List.length_range'] at hcount
  unfold OpenFelt.oneMissing
  rw [decide_eq_true_eq]
  omega

/-- An open-ended window has a rank at each of its two ends, unless a straight is made. -/
theorem openAt_completes (hbase : base ∈ List.range' 1 10) (hopen : openAt present base = true) (hnone : ¬StraightMade ranks) :
    ∃ r s, r ≠ s ∧ Completes ranks r ∧ Completes ranks s := by
  simp only [openAt, Bool.and_eq_true, Bool.or_eq_true, Bool.not_eq_true', decide_eq_true_eq] at hopen
  obtain ⟨hone, hends⟩ := hopen
  obtain ⟨gap, hin, hmissing, hrest, r, hr, hcompletes⟩ := missing_rank hpresent hbase hone
  have hbounds := mem_window.mp hin
  have hb := mem_bases.mp hbase
  -- the value beyond the other end, with the four, is the run next to it
  have hbeyond : ∀ base' far, base' ∈ List.range' 1 10 → far ∈ List.range' base' 5 → (∀ w ∈ List.range' base' 5, w ≠ far →
      w ∈ List.range' base 5 ∧ w ≠ gap) → (gap < far ∧ far < gap + 13 ∨ far < gap ∧ gap < far + 13) →
      ∃ r s, r ≠ s ∧ Completes ranks r ∧ Completes ranks s := by
    intro base' far hbase' hfar hfour hapart
    have hheld : ∀ w ∈ List.range' base' 5, w ≠ far → Holds ranks w :=
      fun w hw hne => hrest w (hfour w hw hne).1 (hfour w hw hne).2
    have hgone : ¬Holds ranks far := by
      intro hfarheld
      refine hnone ⟨base', hbase', ?_⟩
      intro w hw
      by_cases hw' : w = far
      · exact hw' ▸ hfarheld
      · exact hheld w hw hw'
    have hb' := mem_bases.mp hbase'
    have hfarbounds := mem_window.mp hfar
    obtain ⟨s, hs⟩ := exists_rank (v := far) (by omega) (by omega)
    refine ⟨r, s, ?_, ⟨base, hbase, hcompletes⟩, ⟨base', hbase', completesAt hfar hgone hheld hs⟩⟩
    rintro rfl
    rcases holds_two hr hs with heq | hace | hace <;> omega
  rcases hends with ⟨hlow, htop⟩ | ⟨hhigh, hbottom⟩
  · have hgap : gap = base := by
      by_contra hne
      exact (absent_iff hpresent).mp hlow (hrest base (mem_window.mpr ⟨Nat.le_refl _, by omega⟩) (Ne.symm hne))
    refine hbeyond (base + 1) (base + 5) (mem_bases.mpr ⟨by omega, by omega⟩) (mem_window.mpr ⟨by omega, by omega⟩) ?_ (by omega)
    intro w hw hne
    rw [mem_window] at hw ⊢
    omega
  · have hgap : gap = base + 4 := by
      by_contra hne
      exact (absent_iff hpresent).mp hhigh (hrest (base + 4) (mem_window.mpr ⟨by omega, Nat.le_refl _⟩) (Ne.symm hne))
    refine hbeyond (base - 1) (base - 1) (mem_bases.mpr ⟨by omega, by omega⟩) (mem_window.mpr ⟨by omega, by omega⟩) ?_ (by omega)
    intro w hw hne
    rw [mem_window] at hw ⊢
    omega

end present

end runs

/-! ## Straights by the rules -/

def ranksHeld (cards : List Card) : List Rank := cards.map (·.rank)

theorem lowValue_eq {r : Rank} (h : r ≠ .ace) : r.lowValue = r.value := by
  cases r <;> first | rfl | exact absurd rfl h

/-- A made straight is five of the cards, from its top down. -/
theorem StraightMade.runTo {cards : List Card} (h : StraightMade (ranksHeld cards)) :
    ∃ five top, (∀ card ∈ five, card ∈ cards) ∧ RunTo five top := by
  obtain ⟨base, hbase, hrun⟩ := h
  rw [mem_bases] at hbase
  have hcard : ∀ i, i ≤ 4 → ∃ card ∈ cards, card.rank.value = base + i ∨ card.rank = .ace ∧ base + i = 1 := by
    intro i hi
    obtain ⟨r, hr, hv⟩ := hrun (base + i) (mem_window.mpr ⟨by omega, by omega⟩)
    obtain ⟨card, hcard, rfl⟩ := List.mem_map.mp hr
    exact ⟨card, hcard, hv⟩
  obtain ⟨c0, h0, hv0⟩ := hcard 0 (by decide)
  obtain ⟨c1, h1, hv1⟩ := hcard 1 (by decide)
  obtain ⟨c2, h2, hv2⟩ := hcard 2 (by decide)
  obtain ⟨c3, h3, hv3⟩ := hcard 3 (by decide)
  obtain ⟨c4, h4, hv4⟩ := hcard 4 (by decide)
  have hvalue : ∀ {card : Card} {i : Nat}, card.rank.value = base + i ∨ card.rank = .ace ∧ base + i = 1 → base + i ≠ 1 →
      card.rank.value = base + i := fun h hne => h.resolve_right fun hace => hne hace.2
  have hall : ∀ card ∈ [c4, c3, c2, c1, c0], card ∈ cards := by simp [h0, h1, h2, h3, h4]
  by_cases hwheel : base = 1
  · subst hwheel
    have hlow : ∀ {card : Card} {i : Nat}, card.rank.value = 1 + i ∨ card.rank = .ace ∧ 1 + i = 1 → 1 ≤ i → i ≤ 4 →
        card.rank.lowValue = 1 + i := by
      intro card i hv hlow hhigh
      have hv := hvalue hv (by omega)
      rw [lowValue_eq (by rintro he; rw [he] at hv; simp [Rank.value] at hv; omega), hv]
    have hace : c0.rank = .ace := by
      refine (hv0.resolve_left ?_).1
      cases c0.rank <;> decide
    refine ⟨_, .five, hall, Or.inr ⟨rfl, ?_⟩⟩
    rw [List.map_cons, List.map_cons, List.map_cons, List.map_cons, List.map_cons, hlow hv1 (by decide) (by decide),
      hlow hv2 (by decide) (by decide), hlow hv3 (by decide) (by decide), hlow hv4 (by decide) (by decide), hace]
    exact List.Perm.refl _
  · refine ⟨_, c4.rank, hall, Or.inl ?_⟩
    simp [hvalue hv0 (by omega), hvalue hv1 (by omega), hvalue hv2 (by omega), hvalue hv3 (by omega), hvalue hv4 (by omega)]

theorem RunTo.straightMade {cards five : List Card} {top : Rank} (hall : ∀ card ∈ five, card ∈ cards) (hrun : RunTo five top) :
    StraightMade (ranksHeld cards) := by
  rcases hrun with hrun | ⟨rfl, hrun⟩
  · have hmem : ∀ {v : Nat}, v ∈ [top.value, top.value - 1, top.value - 2, top.value - 3, top.value - 4] →
        ∃ card ∈ five, card.rank.value = v := fun hv => List.mem_map.mp (hrun.mem_iff.mpr hv)
    obtain ⟨last, -, hlast⟩ := hmem (v := top.value - 4) (by simp)
    have hlow : 2 ≤ last.rank.value := by cases last.rank <;> decide
    have hhigh : top.value ≤ 14 := by cases top <;> decide
    refine ⟨top.value - 4, mem_bases.mpr ⟨by omega, by omega⟩, ?_⟩
    intro v hv
    rw [mem_window] at hv
    obtain ⟨card, hcard, hvalue⟩ := hmem (v := v) (by simp; omega)
    exact ⟨card.rank, List.mem_map_of_mem (hall card hcard), Or.inl hvalue⟩
  · refine ⟨1, by decide, ?_⟩
    intro v hv
    have hin : v ∈ five.map (·.rank.lowValue) := by
      rw [hrun.mem_iff]
      rw [mem_window] at hv
      simp
      omega
    obtain ⟨card, hcard, hvalue⟩ := List.mem_map.mp hin
    refine ⟨card.rank, List.mem_map_of_mem (hall card hcard), ?_⟩
    by_cases hace : card.rank = .ace
    · refine Or.inr ⟨hace, ?_⟩
      rw [← hvalue, hace]
      rfl
    · exact Or.inl (lowValue_eq hace ▸ hvalue)

theorem straightMade_iff {cards : List Card} :
    StraightMade (ranksHeld cards) ↔ ∃ five top, (∀ card ∈ five, card ∈ cards) ∧ RunTo five top :=
  ⟨StraightMade.runTo, fun ⟨_, _, hall, hrun⟩ => hrun.straightMade hall⟩

/-! ## What the flags promise -/

/-- The flags report draws, and every draw of a hole card to a straight is reported. -/
structure ReportsDraws (hole board : List Card) : Prop where
  notMade : (detectDraws hole board).oesd = true ∨ (detectDraws hole board).gutshot = true →
    ¬StraightMade (ranksHeld (hole ++ board))
  openEnded : (detectDraws hole board).oesd = true →
    ∃ r s, r ≠ s ∧ Completes (ranksHeld (hole ++ board)) r ∧ Completes (ranksHeld (hole ++ board)) s
  gutshot : (detectDraws hole board).gutshot = true → (detectDraws hole board).oesd = false →
    ∃ r, Completes (ranksHeld (hole ++ board)) r
  flush : (detectDraws hole board).flushDraw = true → (∀ suit, suitCount (hole ++ board) suit < 5) ∧
    ∃ card ∈ hole, ∀ r, 5 ≤ suitCount (⟨r, card.suit⟩ :: (hole ++ board)) card.suit
  reported : ∀ r, ∀ base ∈ List.range' 1 10, CompletesAt (ranksHeld (hole ++ board)) r base →
    (∃ v ∈ List.range' base 5, Holds (ranksHeld hole) v) →
      (detectDraws hole board).oesd = true ∨ (detectDraws hole board).gutshot = true

section reports
variable {hole board : List Card} {suit t : Suit}

theorem present_iff (v : Nat) : (rankValues (hole ++ board)).contains v = true ↔ Holds (ranksHeld (hole ++ board)) v :=
  contains_rankValues

theorem anyWindow_iff {sets : (Nat → Bool) → Nat → Bool} : anyWindow hole board sets = true ↔ ∃ base ∈ List.range' 1 10,
    (∃ v ∈ List.range' base 5, Holds (ranksHeld hole) v) ∧ sets (rankValues (hole ++ board)).contains base = true := by
  simp only [anyWindow, List.any_eq_true, Bool.and_eq_true]
  constructor
  · rintro ⟨base, hbase, ⟨v, hv, hheld⟩, hsets⟩
    exact ⟨base, hbase, ⟨v, hv, contains_rankValues.mp hheld⟩, hsets⟩
  · rintro ⟨base, hbase, ⟨v, hv, hheld⟩, hsets⟩
    exact ⟨base, hbase, ⟨v, hv, contains_rankValues.mpr hheld⟩, hsets⟩

/-- A straight draw is reported of a window with one value missing and a hole card. -/
theorem reports_iff (hboard : board ≠ []) : (detectDraws hole board).oesd = true ∨ (detectDraws hole board).gutshot = true ↔
    anyWindow hole board oneMissing = true := by
  obtain ⟨hoesd, hgutshot, -⟩ := @detectDraws_flags hole board hboard
  rw [hoesd, hgutshot, anyWindow_iff, anyWindow_iff, anyWindow_iff]
  constructor
  · rintro (⟨base, hbase, hheld, hopen⟩ | ⟨base, hbase, hheld, hgap⟩)
    · exact ⟨base, hbase, hheld, (Bool.and_eq_true_iff.mp hopen).1⟩
    · exact ⟨base, hbase, hheld, (Bool.and_eq_true_iff.mp hgap).1⟩
  · rintro ⟨base, hbase, hheld, hone⟩
    by_cases hopen : openAt (rankValues (hole ++ board)).contains base = true
    · exact Or.inl ⟨base, hbase, hheld, hopen⟩
    · exact Or.inr ⟨base, hbase, hheld, by rw [hone, Bool.true_and, Bool.not_eq_true']; exact Bool.eq_false_iff.mpr hopen⟩

theorem suitCount_two (cards : List Card) (h : suit ≠ t) : suitCount cards suit + suitCount cards t ≤ cards.length := by
  induction cards with
  | nil => exact Nat.le_refl 0
  | cons card rest ih =>
    simp only [suitCount, List.countP_cons, List.length_cons, beq_iff_eq] at ih ⊢
    by_cases hsuit : card.suit = suit
    · have ht : card.suit ≠ t := fun he => h (hsuit.symm.trans he)
      rw [if_pos hsuit, if_neg ht]
      omega
    · rw [if_neg hsuit]
      split <;> omega

theorem suitCount_append (a b : List Card) (suit : Suit) : suitCount (a ++ b) suit = suitCount a suit + suitCount b suit :=
  List.countP_append

/-- Of at most six cards, a flush draw has four of a suit, one of them in the hole. -/
theorem flush_draws (hlen : (hole ++ board).length ≤ 6) (hboard : board ≠ []) (h : (detectDraws hole board).flushDraw = true) :
    (∀ suit, suitCount (hole ++ board) suit < 5) ∧
      ∃ card ∈ hole, ∀ r, 5 ≤ suitCount (⟨r, card.suit⟩ :: (hole ++ board)) card.suit := by
  rw [(detectDraws_flags hboard).2.2, List.any_eq_true] at h
  obtain ⟨suit, -, hsuit⟩ := h
  simp only [Bool.and_eq_true, decide_eq_true_eq, ← suitCount_append] at hsuit
  obtain ⟨hhole, hfour⟩ := hsuit
  constructor
  · intro other
    by_cases hother : other = suit
    · rw [hother, hfour]
      decide
    · have htwo := suitCount_two (hole ++ board) hother
      omega
  · obtain ⟨card, hcard, hheld⟩ := List.countP_pos_iff.mp (Nat.pos_of_ne_zero hhole)
    have hcs : card.suit = suit := by simpa using hheld
    refine ⟨card, hcard, ?_⟩
    intro r
    have hcount : suitCount (⟨r, card.suit⟩ :: (hole ++ board)) card.suit = suitCount (hole ++ board) card.suit + 1 :=
      List.countP_cons_of_pos (by simp)
    rw [hcount, hcs, hfour]

/-- The flags keep their promise as long as none is up with a straight made. -/
theorem reportsDraws_iff (hlen : (hole ++ board).length ≤ 6) (hboard : board ≠ []) :
    ReportsDraws hole board ↔ ¬StraightMade (ranksHeld (hole ++ board)) ∨ anyWindow hole board oneMissing = false := by
  obtain ⟨hoesd, hgutshot, -⟩ := @detectDraws_flags hole board hboard
  have hreported : ∀ r, ∀ base ∈ List.range' 1 10, CompletesAt (ranksHeld (hole ++ board)) r base →
      (∃ v ∈ List.range' base 5, Holds (ranksHeld hole) v) →
      (detectDraws hole board).oesd = true ∨ (detectDraws hole board).gutshot = true := by
    intro r base hbase hcompletes hheld
    exact (reports_iff hboard).mpr (anyWindow_iff.mpr ⟨base, hbase, hheld, hcompletes.oneMissing present_iff⟩)
  constructor
  · intro h
    by_cases hany : anyWindow hole board oneMissing = true
    · exact Or.inl (h.notMade ((reports_iff hboard).mpr hany))
    · exact Or.inr (Bool.not_eq_true _ ▸ hany)
  · rintro (hnone | hquiet)
    · refine ⟨fun _ => hnone, ?_, ?_, flush_draws hlen hboard, hreported⟩
      · intro hup
        rw [hoesd, anyWindow_iff] at hup
        obtain ⟨base, hbase, -, hopen⟩ := hup
        exact openAt_completes present_iff hbase hopen hnone
      · intro hup _
        rw [hgutshot, anyWindow_iff] at hup
        obtain ⟨base, hbase, -, hgap⟩ := hup
        obtain ⟨-, -, -, -, r, -, hcompletes⟩ := missing_rank present_iff hbase (Bool.and_eq_true_iff.mp hgap).1
        exact ⟨r, base, hbase, hcompletes⟩
    · have hdown : ¬((detectDraws hole board).oesd = true ∨ (detectDraws hole board).gutshot = true) := by
        rw [reports_iff hboard, hquiet]
        decide
      exact ⟨fun hup => absurd hup hdown, fun hup => absurd (Or.inl hup) hdown, fun hup _ => absurd (Or.inr hup) hdown,
        flush_draws hlen hboard, hreported⟩

end reports

/-! ## Draws reported of a made straight -/

/-- A straight is made, and the four of the board that are in it leave the hole cards out of every other window:
    the ace below or above four of the board, or the two cards at the end of six. -/
def Screened (hole board : List Rank) : Prop :=
  Holds hole 14 ∧
    ((∀ v ∈ [2, 3, 4, 5], Holds board v) ∧ (∀ r ∈ hole, 8 ≤ r.value) ∨
      (∀ v ∈ [3, 4, 5, 6], Holds board v) ∧ Holds hole 2 ∨
      (∀ v ∈ [10, 11, 12, 13], Holds board v) ∧ (∀ r ∈ hole, r = .ace ∨ r.value ≤ 7) ∨
      (∀ v ∈ [9, 10, 11, 12], Holds board v) ∧ Holds hole 13)

/-- A value of a run from `base`, or the ace of the run from one. -/
def inRun (base v : Nat) : Bool := base ≤ v && v ≤ base + 4 || v = 14 && base = 1

/-- The values of a run and one more rank. -/
def presentIn (base extra v : Nat) : Bool := inRun base v || v = extra || v = 1 && (base = 10 || extra = 14)

def heldBy (x y v : Nat) : Bool := v = x || v = y || v = 1 && (x = 14 || y = 14)

def screenedBy (present : Nat → Bool) (x y : Nat) : Bool :=
  heldBy x y 14 &&
    ([2, 3, 4, 5].all present && 8 ≤ x && 8 ≤ y || [3, 4, 5, 6].all present && heldBy x y 2 ||
      [10, 11, 12, 13].all present && (x = 14 || x ≤ 7) && (y = 14 || y ≤ 7) || [9, 10, 11, 12].all present && heldBy x y 13)

/-- No window with one value missing holds a hole card. -/
def quiet (present held : Nat → Bool) : Bool :=
  !(List.range' 1 10).any fun base => (List.range' base 5).any held && oneMissing present base

/-- Six ranks are from six cards, so the hole cards differ where the extra rank is not in the run. -/
theorem quiet_screened : ∀ base ∈ List.range' 1 10, ∀ extra ∈ List.range' 2 13, ∀ x ∈ List.range' 2 13,
    presentIn base extra x = true → ∀ y ∈ List.range' 2 13, presentIn base extra y = true → (inRun base extra = true ∨ x ≠ y) →
      quiet (presentIn base extra) (heldBy x y) = screenedBy (presentIn base extra) x y := by
  decide +kernel

section made
variable {x y : Rank} {ranks hole board : List Rank} {v base : Nat}

theorem value_bounds (r : Rank) : r.value ∈ List.range' 2 13 := by
  cases r <;> decide

theorem holds_value {r : Rank} : Holds ranks r.value ↔ r ∈ ranks := by
  constructor
  · rintro ⟨a, ha, h | ⟨rfl, h⟩⟩
    · exact Rank.value_inj h ▸ ha
    · cases r <;> cases h
  · exact fun h => ⟨r, h, Or.inl rfl⟩

theorem Holds.bounds (h : Holds ranks v) : 1 ≤ v ∧ v ≤ 14 := by
  obtain ⟨r, -, rfl | ⟨-, rfl⟩⟩ := h
  · have hr := List.mem_range'_1.mp (value_bounds r)
    omega
  · decide

theorem heldBy_iff : heldBy x.value y.value v = true ↔ Holds [x, y] v := by
  have hace : ∀ r : Rank, r.value = 14 ↔ r = .ace := fun r => by cases r <;> simp [Rank.value]
  simp only [heldBy, Bool.or_eq_true, Bool.and_eq_true, decide_eq_true_eq, Holds, List.mem_cons, List.not_mem_nil, or_false,
    exists_eq_or_imp, exists_eq_left, hace]
  tauto

/-- The ranks of a run. -/
def runRanks (base : Nat) : Finset Rank := (Rank.all.filter fun r => inRun base r.value).toFinset

theorem mem_runRanks {r : Rank} : r ∈ runRanks base ↔ inRun base r.value = true := by
  have hall : r ∈ Rank.all := by cases r <;> decide
  simp [runRanks, hall]

theorem card_runRanks (hbase : base ∈ List.range' 1 10) : (runRanks base).card = 5 := by
  have hall : ∀ base ∈ List.range' 1 10, (runRanks base).card = 5 := by decide
  exact hall base hbase

/-- The ranks of a run are held. -/
theorem StraightRun.subset (hrun : StraightRun ranks base) : runRanks base ⊆ ranks.toFinset := by
  intro r hr
  rw [mem_runRanks] at hr
  rw [List.mem_toFinset]
  simp only [inRun, Bool.or_eq_true, Bool.and_eq_true, decide_eq_true_eq] at hr
  rcases hr with hr | ⟨hr, rfl⟩
  · exact holds_value.mp (hrun r.value (mem_window.mpr hr))
  · obtain ⟨a, ha, h | ⟨rfl, -⟩⟩ := hrun 1 (by decide)
    · cases a <;> cases h
    · cases r <;> cases hr
      exact ha

theorem ace_inRun (hbase : base ∈ List.range' 1 10) : inRun base 14 = true ↔ base = 1 ∨ base = 10 := by
  rw [mem_bases] at hbase
  simp only [inRun, Bool.or_eq_true, Bool.and_eq_true, decide_eq_true_eq, true_and]
  omega

/-- Where every rank held is in the run or the extra one, the values are those. -/
theorem holds_presentIn {extra : Rank} (hbase : base ∈ List.range' 1 10)
    (hranks : ∀ r, r ∈ ranks ↔ inRun base r.value = true ∨ r = extra) (v : Nat) :
    presentIn base extra.value v = true ↔ Holds ranks v := by
  have hb := mem_bases.mp hbase
  have hace : extra.value = 14 ↔ extra = .ace := ⟨fun h => Rank.value_inj h, fun h => h ▸ rfl⟩
  by_cases hbounds : ¬(1 ≤ v ∧ v ≤ 14)
  · refine iff_of_false ?_ fun h => hbounds h.bounds
    have hextra := List.mem_range'_1.mp (value_bounds extra)
    simp only [presentIn, inRun, Bool.or_eq_true, Bool.and_eq_true, decide_eq_true_eq]
    omega
  rw [not_not] at hbounds
  obtain ⟨r, a, ha, hv⟩ := exists_rank hbounds.1 hbounds.2
  obtain rfl := List.mem_singleton.mp ha
  simp only [presentIn, Bool.or_eq_true, Bool.and_eq_true, decide_eq_true_eq, hace]
  rcases hv with rfl | ⟨rfl, rfl⟩
  · have hne : a.value ≠ 1 := by cases a <;> decide
    have heq : a.value = extra.value ↔ a = extra := ⟨Rank.value_inj, fun h => h ▸ rfl⟩
    rw [holds_value, hranks]
    simp only [hne, false_and, or_false, heq]
  · have hone : inRun base 1 = true ↔ base = 1 := by
      simp only [inRun, Bool.or_eq_true, Bool.and_eq_true, decide_eq_true_eq]
      omega
    have hholds : Holds ranks 1 ↔ Rank.ace ∈ ranks := by
      constructor
      · rintro ⟨b, hb, h | ⟨rfl, -⟩⟩
        · cases b <;> cases h
        · exact hb
      · exact fun h => ⟨.ace, h, Or.inr ⟨rfl, rfl⟩⟩
    have hextra : 1 ≠ extra.value := by cases extra <;> decide
    rw [hholds, hranks, show Rank.ace.value = 14 from rfl, ace_inRun hbase, hone]
    simp only [hextra, or_false, true_and, eq_comm (a := Rank.ace)]
    tauto

/-- Of at most six cards that make a straight, at most one rank is not in it. -/
theorem extra_rank (hbase : base ∈ List.range' 1 10) (hrun : StraightRun ranks base) (hlen : ranks.length ≤ 6) :
    ∃ extra : Rank, ∀ r, r ∈ ranks ↔ inRun base r.value = true ∨ r = extra := by
  have hsub := hrun.subset
  have hcard : (ranks.toFinset \ runRanks base).card ≤ 1 := by
    have hle := List.toFinset_card_le ranks
    rw [Finset.card_sdiff_of_subset hsub, card_runRanks hbase]
    omega
  have hmem : ∀ r, r ∈ ranks ↔ inRun base r.value = true ∨ r ∈ ranks.toFinset \ runRanks base := by
    intro r
    rw [Finset.mem_sdiff, List.mem_toFinset, ← mem_runRanks]
    by_cases hr : r ∈ runRanks base
    · exact iff_of_true (List.mem_toFinset.mp (hsub hr)) (Or.inl hr)
    · simp [hr]
  rcases Nat.le_one_iff_eq_zero_or_eq_one.mp hcard with hnone | hone
  · obtain ⟨inside, hinside⟩ := Finset.card_pos.mp (show 0 < (runRanks base).card by rw [card_runRanks hbase]; decide)
    refine ⟨inside, ?_⟩
    intro r
    rw [hmem, Finset.card_eq_zero.mp hnone]
    constructor
    · rintro (hr | hr)
      · exact Or.inl hr
      · cases hr
    · rintro (hr | rfl)
      · exact Or.inl hr
      · exact Or.inl (mem_runRanks.mp hinside)
  · obtain ⟨extra, hextra⟩ := Finset.card_eq_one.mp hone
    refine ⟨extra, ?_⟩
    intro r
    rw [hmem, hextra, Finset.mem_singleton]

/-- Cards of two equal hole cards and at most four of the board have at most five ranks. -/
theorem extra_inRun {extra : Rank} {board : List Rank} (hbase : base ∈ List.range' 1 10)
    (hranks : ∀ r, r ∈ x :: y :: board ↔ inRun base r.value = true ∨ r = extra) (hlen : board.length ≤ 4) :
    inRun base extra.value = true ∨ x.value ≠ y.value := by
  by_contra hnot
  rw [not_or, Bool.not_eq_true, not_not] at hnot
  obtain ⟨hout, heq⟩ := hnot
  obtain rfl := Rank.value_inj heq
  have hsub : insert extra (runRanks base) ⊆ insert x board.toFinset := by
    intro r hr
    have hmem : r ∈ x :: x :: board := by
      rw [hranks, ← mem_runRanks]
      exact (Finset.mem_insert.mp hr).symm
    simpa using hmem
  have hnew : extra ∉ runRanks base := by rw [mem_runRanks, hout]; decide
  have hcard := Finset.card_le_card hsub
  have hfive := Finset.card_insert_le x board.toFinset
  have hboard := List.toFinset_card_le board
  rw [Finset.card_insert_of_notMem hnew, card_runRanks hbase] at hcard
  omega

theorem holds_append {a b : List Rank} : Holds (a ++ b) v ↔ Holds a v ∨ Holds b v := by
  simp [Holds, or_and_right, exists_or]

/-- The board's part of `screenedBy`, where the hole cards have none of the values. -/
theorem all_present {present : Nat → Bool} {values : List Nat} (hpresent : ∀ v, present v = true ↔ Holds ([x, y] ++ board) v)
    (hfree : ∀ v ∈ values, heldBy x.value y.value v = false) : values.all present = true ↔ ∀ v ∈ values, Holds board v := by
  rw [List.all_eq_true]
  refine forall₂_congr fun v hv => ?_
  rw [hpresent, holds_append, ← heldBy_iff, hfree v hv]
  simp

theorem screenedBy_iff {present : Nat → Bool} (hpresent : ∀ v, present v = true ↔ Holds ([x, y] ++ board) v) :
    screenedBy present x.value y.value = true ↔ Screened [x, y] board := by
  have hx := List.mem_range'_1.mp (value_bounds x)
  have hy := List.mem_range'_1.mp (value_bounds y)
  have hace : ∀ r : Rank, r = .ace ↔ r.value = 14 := fun r => ⟨fun h => h ▸ rfl, fun h => Rank.value_inj h⟩
  have hfree : ∀ values : List Nat, (∀ v ∈ values, v ≠ x.value ∧ v ≠ y.value ∧ v ≠ 1) →
      ∀ v ∈ values, heldBy x.value y.value v = false := by
    intro values h v hv
    obtain ⟨h1, h2, h3⟩ := h v hv
    simp [heldBy, h1, h2, h3]
  unfold screenedBy Screened
  rw [Bool.and_eq_true, heldBy_iff]
  refine and_congr_right fun h14 => ?_
  have h14' : x.value = 14 ∨ y.value = 14 := by
    have hheld := heldBy_iff.mpr h14
    simp only [heldBy, Bool.or_eq_true, Bool.and_eq_true, decide_eq_true_eq] at hheld
    omega
  have hboth : ∀ p : Rank → Prop, (∀ r ∈ [x, y], p r) ↔ p x ∧ p y := fun p => by simp
  have hvalue : ∀ v, heldBy x.value y.value v = true → v ≠ 1 → v = x.value ∨ v = y.value := by
    intro v hv hne
    simp only [heldBy, Bool.or_eq_true, Bool.and_eq_true, decide_eq_true_eq] at hv
    omega
  simp only [Bool.or_eq_true, Bool.and_eq_true, decide_eq_true_eq, or_assoc, and_assoc, hboth, hace, ← heldBy_iff]
  refine or_congr ?_ (or_congr ?_ (or_congr ?_ ?_))
  · refine and_congr_left fun hhigh => all_present hpresent (hfree _ ?_)
    intro v hv
    simp only [List.mem_cons, List.not_mem_nil, or_false] at hv
    omega
  · refine and_congr_left fun htwo => all_present hpresent (hfree _ ?_)
    have := hvalue 2 htwo (by decide)
    intro v hv
    simp only [List.mem_cons, List.not_mem_nil, or_false] at hv
    omega
  · refine and_congr_left fun hlow => all_present hpresent (hfree _ ?_)
    intro v hv
    simp only [List.mem_cons, List.not_mem_nil, or_false] at hv
    omega
  · refine and_congr_left fun hking => all_present hpresent (hfree _ ?_)
    have := hvalue 13 hking (by decide)
    intro v hv
    simp only [List.mem_cons, List.not_mem_nil, or_false] at hv
    omega

end made

/-! ## When the flags keep their promise -/

section promise
variable {first second : Card} {board : List Card} {base : Nat}

/-- With a straight made, no draw is reported exactly when the hole cards are screened. -/
theorem quiet_iff (hlen : board.length ≤ 4) (hmade : StraightMade (ranksHeld ([first, second] ++ board))) :
    anyWindow [first, second] board oneMissing = false ↔ Screened [first.rank, second.rank] (ranksHeld board) := by
  obtain ⟨base, hbase, hrun⟩ := hmade
  obtain ⟨extra, hranks⟩ := extra_rank hbase hrun (by simp [ranksHeld]; omega)
  have hpresent := holds_presentIn hbase hranks
  have hwindows : (rankValues ([first, second] ++ board)).contains = presentIn base extra.value := by
    funext v
    rw [Bool.eq_iff_iff, present_iff, hpresent]
  have hheld : (rankValues [first, second]).contains = heldBy first.rank.value second.rank.value := by
    funext v
    rw [Bool.eq_iff_iff, contains_rankValues, heldBy_iff]
    rfl
  have hmem : ∀ r, r ∈ [first.rank, second.rank] → presentIn base extra.value r.value = true := by
    intro r hr
    rw [hpresent, holds_value]
    exact List.mem_append_left (ranksHeld board) hr
  have hquiet : quiet (presentIn base extra.value) (heldBy first.rank.value second.rank.value) =
      screenedBy (presentIn base extra.value) first.rank.value second.rank.value :=
    quiet_screened base hbase extra.value (value_bounds extra) first.rank.value (value_bounds _) (hmem _ List.mem_cons_self)
      second.rank.value (value_bounds _) (hmem _ (List.mem_cons_of_mem _ List.mem_cons_self))
      (extra_inRun hbase hranks (by simpa [ranksHeld] using hlen))
  have hscreened : screenedBy (presentIn base extra.value) first.rank.value second.rank.value = true ↔
      Screened [first.rank, second.rank] (ranksHeld board) := screenedBy_iff hpresent
  rw [← hscreened, ← hquiet]
  unfold quiet anyWindow
  rw [hwindows, hheld, Bool.not_eq_true']

/-- The flags of two hole cards and a flop or turn report draws exactly when no straight is made, or the board holds
    four cards of it and screens the hole cards from every draw. -/
theorem draws_are_draws (first second : Card) (board : List Card) (hlen : board.length = 3 ∨ board.length = 4) :
    ReportsDraws [first, second] board ↔
      ¬StraightMade (ranksHeld ([first, second] ++ board)) ∨ Screened [first.rank, second.rank] (ranksHeld board) := by
  have hboard : board ≠ [] := by
    rintro rfl
    simp at hlen
  rw [reportsDraws_iff (by simp; omega) hboard]
  by_cases hmade : StraightMade (ranksHeld ([first, second] ++ board))
  · rw [quiet_iff (by omega) hmade]
  · exact iff_of_true (Or.inl hmade) (Or.inl hmade)

/-- An ace under four of the board makes the straight, and nothing is reported of it. -/
theorem draws_are_draws_screened :
    ReportsDraws [⟨.ace, .spades⟩, ⟨.king, .hearts⟩]
    [⟨.two, .clubs⟩, ⟨.three, .diamonds⟩, ⟨.four, .hearts⟩, ⟨.five, .clubs⟩] := by
  refine (draws_are_draws _ _ _ (Or.inr rfl)).mpr (Or.inr ⟨⟨.ace, by decide, Or.inl rfl⟩, Or.inl ⟨?_, by decide⟩⟩)
  unfold Holds
  decide

/-- Five to nine is a straight, and an open-ended draw to it is reported. -/
theorem straight_reported : [(⟨.five, .spades⟩ : Card), ⟨.six, .hearts⟩, ⟨.seven, .clubs⟩, ⟨.eight, .diamonds⟩,
    ⟨.nine, .spades⟩].Nodup ∧
    ¬ReportsDraws [⟨.five, .spades⟩, ⟨.six, .hearts⟩] [⟨.seven, .clubs⟩, ⟨.eight, .diamonds⟩, ⟨.nine, .spades⟩] := by
  refine ⟨by decide, fun h => h.notMade (Or.inl (by decide)) ⟨5, by decide, ?_⟩⟩
  unfold StraightRun Holds
  decide

end promise

end OpenFelt
