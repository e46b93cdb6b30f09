/-
  OpenFelt.Game.History — a street read off its action records.

  `inForce` is the wager and the least raise after a list of records, `FullRaise` and
  `shortAllIns` what the records since a turn did to them. `Reopened` is the rule for
  raising again as the rules state it, from the records alone; on a street under way it
  is what `raise_reopened_for` answers from its marks (`UnderWay.reopened_iff`).
-/

import OpenFelt.Game.HandPlay

namespace OpenFelt

open Betting

/-- A bet, a raise or an all-in. -/
def Action.raises : Action → Bool
  | bet _ | raise _ | allIn _ => true
  | fold | check | call _ => false

def Action.isAllIn : Action → Bool
  | allIn _ => true
  | fold | check | call _ | bet _ | raise _ => false

namespace MultiwayHand

/-- The wager and the least raise in force after `records`. -/
def inForce (f : Nat × Nat) (records : List MultiwayActionRecord) : Nat × Nat := forceAfter f (records.map (·.toTurn))

/-- A bet, raise or all-in by at least the least raise it faced. -/
def FullRaise (f : Nat × Nat) (record : MultiwayActionRecord) : Prop :=
  record.action.raises = true ∧ f.2 ≤ record.wagerAfter - f.1

/-- What each all-in for less than a full raise lifted the wager by. -/
def shortAllIns (f : Nat × Nat) : List MultiwayActionRecord → List Nat
  | [] => []
  | record :: records =>
    let rest := shortAllIns (force f record.toTurn) records
    if record.action.isAllIn = true ∧ f.1 < record.wagerAfter ∧ record.wagerAfter - f.1 < f.2 then
      (record.wagerAfter - f.1) :: rest
    else rest

/-- Raising is open to `p`: no turn yet, or since the last one a full raise, or all-ins that
    together come to the least raise now in force. -/
def Reopened (f : Nat × Nat) (records : List MultiwayActionRecord) (p : SeatId) : Prop :=
  (∀ record ∈ records, record.seat ≠ p) ∨
    ∃ pre last post, records = pre ++ last :: post ∧ last.seat = p ∧ (∀ record ∈ post, record.seat ≠ p) ∧
      ((∃ a x b, post = a ++ x :: b ∧ FullRaise (inForce f (pre ++ last :: a)) x) ∨
        (inForce f records).2 ≤ (shortAllIns (inForce f (pre ++ [last])) post).sum)

section reading
variable {f : Nat × Nat} {records pre post : List MultiwayActionRecord} {record : MultiwayActionRecord}

theorem inForce_append (f : Nat × Nat) (a b : List MultiwayActionRecord) : inForce f (a ++ b) = inForce (inForce f a) b := by
  simp [inForce, forceAfter]

theorem inForce_cons (f : Nat × Nat) (record : MultiwayActionRecord) (records : List MultiwayActionRecord) :
    inForce f (record :: records) = inForce (force f record.toTurn) records := rfl

theorem lifted_append (f : Nat × Nat) (a b : List MultiwayActionRecord) :
    Lifted f (a ++ b) ↔ Lifted f a ∧ Lifted (inForce f a) b := by
  induction a generalizing f with
  | nil => simp [Lifted, inForce, forceAfter]
  | cons record a ih => rw [List.cons_append, Lifted, Lifted, ih, inForce_cons, and_assoc]

theorem force_raise_le (f : Nat × Nat) (t : Turn SeatId) : f.2 ≤ (force f t).2 := by
  simp only [force]; split <;> omega

theorem inForce_raise_le (f : Nat × Nat) (records : List MultiwayActionRecord) : f.2 ≤ (inForce f records).2 := by
  induction records generalizing f with
  | nil => exact Nat.le_refl _
  | cons record records ih => exact Nat.le_trans (force_raise_le f _) (ih _)

/-- The records' kinds agree with their wagers: only a raise of some kind lifts the wager. -/
theorem fullRaise_iff (hl : record.action.Lifts f record.wagerAfter) (hpos : 0 < f.2) :
    FullRaise f record ↔ f.2 ≤ record.wagerAfter - f.1 := by
  refine and_iff_right_of_imp fun hle => ?_
  cases hact : record.action with
  | bet n => rfl
  | raise n => rfl
  | allIn n => rfl
  | fold | check | call n =>
    rw [hact] at hl
    have hl : record.wagerAfter = f.1 := hl
    omega

theorem anyFull_iff (hl : Lifted f records) (hpos : 0 < f.2) : anyFull f (records.map (·.toTurn)) = true ↔
    ∃ a x b, records = a ++ x :: b ∧ FullRaise (inForce f a) x := by
  induction records generalizing f with
  | nil => simp [anyFull]
  | cons record records ih =>
    have hrest := ih hl.2 (Nat.lt_of_lt_of_le hpos (force_raise_le f _))
    rw [List.map_cons, anyFull, Bool.or_eq_true, decide_eq_true_eq, hrest]
    constructor
    · rintro (hfull | ⟨a, x, b, rfl, hx⟩)
      · exact ⟨[], record, records, rfl, (fullRaise_iff hl.1 hpos).mpr hfull⟩
      · exact ⟨record :: a, x, b, rfl, hx⟩
    · rintro ⟨a, x, b, hsplit, hx⟩
      cases a with
      | nil =>
        obtain ⟨rfl, rfl⟩ := List.cons.inj hsplit
        exact Or.inl hx.2
      | cons y a =>
        obtain ⟨rfl, rfl⟩ := List.cons.inj hsplit
        exact Or.inr ⟨a, x, b, rfl, hx⟩

theorem shortRises_sum (hl : Lifted f records) : shortRises f (records.map (·.toTurn)) = (shortAllIns f records).sum := by
  induction records generalizing f with
  | nil => rfl
  | cons record records ih =>
    have hrest := ih hl.2
    have hkind := hl.1
    rw [List.map_cons, shortRises, hrest, shortAllIns]
    show (if f.2 ≤ record.wagerAfter - f.1 then 0 else record.wagerAfter - f.1) + _ = _
    cases hact : record.action with
    | allIn n =>
      simp only [Action.isAllIn, true_and]
      by_cases hfull : f.2 ≤ record.wagerAfter - f.1
      · rw [if_pos hfull, if_neg (by omega), Nat.zero_add]
      · rw [if_neg hfull]
        by_cases hup : f.1 < record.wagerAfter
        · rw [if_pos (by omega), List.sum_cons]
        · rw [if_neg (by omega)]; omega
    | bet n | raise n =>
      rw [hact] at hkind
      have hkind : f.2 ≤ record.wagerAfter - f.1 := hkind
      simp [Action.isAllIn, hkind]
    | fold | check | call n =>
      rw [hact] at hkind
      have hkind : record.wagerAfter = f.1 := hkind
      simp [Action.isAllIn, hkind]

/-- An all-in counted as short is less than the least raise still in force. -/
theorem lt_of_mem_shortAllIns {n : Nat} (hn : n ∈ shortAllIns f records) : n < (inForce f records).2 := by
  induction records generalizing f with
  | nil => cases hn
  | cons record records ih =>
    rw [shortAllIns] at hn
    rw [inForce_cons]
    by_cases hshort : record.action.isAllIn = true ∧ f.1 < record.wagerAfter ∧ record.wagerAfter - f.1 < f.2
    · rw [if_pos hshort] at hn
      rcases List.mem_cons.mp hn with rfl | hn
      · exact Nat.lt_of_lt_of_le hshort.2.2 (Nat.le_trans (force_raise_le f _) (inForce_raise_le _ _))
      · exact ih hn
    · rw [if_neg hshort] at hn; exact ih hn

/-- Turns are open again by the log exactly when they are by the records. -/
theorem reopened_iff_turns {p : SeatId} {least : Nat} (hl : Lifted f records) (hpos : 0 < f.2)
    (hleast : least = (inForce f records).2) :
    ((∀ t ∈ records.map (·.toTurn), t.player ≠ p) ∨ ∃ pre w post, records.map (·.toTurn) = pre ++ ⟨p, w⟩ :: post ∧
      (∀ t ∈ post, t.player ≠ p) ∧ (anyFull (forceAfter f (pre ++ [⟨p, w⟩])) post = true ∨
        least ≤ shortRises (forceAfter f (pre ++ [⟨p, w⟩])) post)) ↔ Reopened f records p := by
  have hnone : (∀ t ∈ records.map (·.toTurn), t.player ≠ p) ↔ ∀ record ∈ records, record.seat ≠ p := by
    simp [MultiwayActionRecord.toTurn]
  rw [hnone, Reopened]
  refine or_congr_right ?_
  -- both sides split the records at the last turn of `p`
  have since : ∀ pre last post, records = pre ++ last :: post →
      Lifted (inForce f (pre ++ [last])) post ∧ 0 < (inForce f (pre ++ [last])).2 := by
    intro pre last post he
    refine ⟨?_, Nat.lt_of_lt_of_le hpos (inForce_raise_le f _)⟩
    rw [show pre ++ last :: post = (pre ++ [last]) ++ post by simp] at he
    rw [he, lifted_append] at hl
    exact hl.2
  have raised : ∀ pre last post, records = pre ++ last :: post →
      ((∃ a x b, post = a ++ x :: b ∧ FullRaise (inForce f (pre ++ last :: a)) x) ∨
          (inForce f records).2 ≤ (shortAllIns (inForce f (pre ++ [last])) post).sum ↔
        anyFull (inForce f (pre ++ [last])) (post.map (·.toTurn)) = true ∨
          least ≤ shortRises (inForce f (pre ++ [last])) (post.map (·.toTurn))) := by
    intro pre last post he
    obtain ⟨h1, h2⟩ := since pre last post he
    rw [anyFull_iff h1 h2, shortRises_sum h1, hleast]
    have hassoc : ∀ a, inForce (inForce f (pre ++ [last])) a = inForce f (pre ++ last :: a) := fun a => by
      rw [← inForce_append]; simp
    simp only [hassoc]
  constructor
  · rintro ⟨pre', w, post', he, hpost, hraise⟩
    obtain ⟨pre, rest, rfl, rfl, hrest⟩ := List.map_eq_append_iff.mp he
    obtain ⟨last, post, rfl, hlast, rfl⟩ := List.map_eq_cons_iff.mp hrest
    have hseat : last.seat = p := congrArg Turn.player hlast
    refine ⟨pre, last, post, rfl, hseat, fun record hr => hpost _ (List.mem_map_of_mem hr), ?_⟩
    rw [raised pre last post rfl]
    rw [← hlast] at hraise
    simpa [inForce] using hraise
  · rintro ⟨pre, last, post, he, hseat, hpost, hraise⟩
    rw [raised pre last post he] at hraise
    refine ⟨pre.map (·.toTurn), last.wagerAfter, post.map (·.toTurn), ?_, fun t ht => ?_, ?_⟩
    · rw [he, List.map_append, List.map_cons, MultiwayActionRecord.toTurn, hseat]
    · obtain ⟨record, hr, rfl⟩ := List.mem_map.mp ht
      exact hpost record hr
    · simpa [inForce, MultiwayActionRecord.toTurn, hseat] using hraise

/-- Once `p` has acted, all-ins do not open raising again while there was no full raise and
    at most one of them. -/
theorem not_reopened_of_single {p : SeatId} {last : MultiwayActionRecord} (hpos : 0 < f.2) (he : records = pre ++ last :: post)
    (hseat : last.seat = p) (hpost : ∀ record ∈ post, record.seat ≠ p)
    (hfull : ∀ a x b, post = a ++ x :: b → ¬ FullRaise (inForce f (pre ++ last :: a)) x)
    (hone : (shortAllIns (inForce f (pre ++ [last])) post).length ≤ 1) : ¬ Reopened f records p := by
  rintro (hnever | ⟨pre', last', post', he', hseat', hpost', hraise⟩)
  · exact hnever last (by rw [he]; simp) hseat
  · obtain ⟨rfl, rfl, rfl⟩ := last_unique (q := fun r : MultiwayActionRecord => r.seat = p)
      (he.symm.trans he') hseat hseat' hpost hpost'
    rcases hraise with ⟨a, x, b, hb, hx⟩ | hsum
    · exact hfull a x b hb hx
    · have hforce : inForce (inForce f (pre ++ [last])) post = inForce f records := by
        rw [← inForce_append, he]; simp
      have hmem : ∀ n ∈ shortAllIns (inForce f (pre ++ [last])) post, n < (inForce f records).2 := fun n hn => by
        rw [← hforce]; exact lt_of_mem_shortAllIns hn
      have hleast := inForce_raise_le f records
      match hs : shortAllIns (inForce f (pre ++ [last])) post with
      | [] => rw [hs] at hsum; simp at hsum; omega
      | [n] =>
        have := hmem n (by rw [hs]; simp)
        rw [hs] at hsum; simp at hsum; omega
      | _ :: _ :: _ => rw [hs] at hone; simp at hone

end reading

end MultiwayHand

end OpenFelt
