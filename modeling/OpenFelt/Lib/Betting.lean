/-
  OpenFelt.Lib.Betting — one street of a no-limit betting game, for players of any type.

  A street holds each player's stack, bet (this street), prior (committed before it),
  status and mark (the wager the player last acted against on this street), the wager
  to match and the least raise. A turn (`Allowed`) folds, matches the wager, raises it
  by at least `raise`, or puts the whole stack in; an all-in raise of less than `raise`
  lifts the wager and leaves `raise` as it is. A play is a sequence of turns by players
  who are asked: live, and either unmarked or below the wager. Its log keeps who acted
  and the wager each turn left.

  Proved:
  - `Play.sound`: nobody is above the wager, some player in the hand is at it, a marked
    live player has bet exactly their mark.
  - `Covered.act`: while what players committed before the street differs by at most one
    chip among those who bet on it (`Level`), every folded player's chips are matched
    by a player in the hand.
  - `Play.open_iff`: a marked player may raise again (`Open`) exactly when a full raise,
    or short ones that add up to one, came after their last turn.
  - `Play.once`: between two turns of one player, another raised the wager.
  - `Allowed.spends`: a turn puts chips in, or leaves fewer players to respond.
-/

import Mathlib.Data.Set.Finite.Lemmas
import OpenFelt.Lib.Ledger

namespace Betting

inductive Status where
  | live
  | folded
  | allIn
  | absent
  deriving DecidableEq, Repr

structure Street (P : Type) where
  stack : P → Nat
  bet : P → Nat
  prior : P → Nat
  status : P → Status
  mark : P → Option Nat
  wager : Nat
  raise : Nat

theorem street_ext {P : Type} {s t : Street P} (h1 : ∀ p, s.stack p = t.stack p) (h2 : ∀ p, s.bet p = t.bet p)
    (h3 : ∀ p, s.prior p = t.prior p) (h4 : ∀ p, s.status p = t.status p) (h5 : ∀ p, s.mark p = t.mark p)
    (h6 : s.wager = t.wager) (h7 : s.raise = t.raise) : s = t := by
  cases s; cases t
  simp only [Street.mk.injEq]
  exact ⟨funext h1, funext h2, funext h3, funext h4, funext h5, h6, h7⟩

/-- What a turn pays and leaves. -/
structure Outcome where
  paid : Nat
  status : Status
  mark : Option Nat
  wager : Nat
  raise : Nat

variable {P : Type}

namespace Street

def InHand (s : Street P) (p : P) : Prop := s.status p = .live ∨ s.status p = .allIn

def total (s : Street P) (p : P) : Nat := s.prior p + s.bet p

/-- A player's chips, committed or not. -/
def held (s : Street P) (p : P) : Nat := s.stack p + s.total p

/-- Whose turn it can be. -/
def Asked (s : Street P) (p : P) : Prop := s.status p = .live ∧ (s.mark p = none ∨ s.bet p < s.wager)

/-- Raising is open to `p`: first turn, or facing at least a full raise since the last. -/
def Open (s : Street P) (p : P) : Prop := ∀ w, s.mark p = some w → s.raise ≤ s.wager - w

def act [DecidableEq P] (s : Street P) (p : P) (o : Outcome) : Street P where
  stack := Function.update s.stack p (s.stack p - o.paid)
  bet := Function.update s.bet p (s.bet p + o.paid)
  prior := s.prior
  status := Function.update s.status p o.status
  mark := Function.update s.mark p o.mark
  wager := o.wager
  raise := o.raise

end Street

open Street

/-- The turns open to a live player. -/
inductive Allowed (s : Street P) (p : P) : Outcome → Prop
  | fold : s.bet p < s.wager → Allowed s p ⟨0, .folded, s.mark p, s.wager, s.raise⟩
  | stay : s.wager - s.bet p < s.stack p → Allowed s p ⟨s.wager - s.bet p, .live, some s.wager, s.wager, s.raise⟩
  | raise (w : Nat) : s.wager + s.raise ≤ w → w < s.bet p + s.stack p →
      Allowed s p ⟨w - s.bet p, .live, some w, w, w - s.wager⟩
  | callAll : s.bet p + s.stack p ≤ s.wager → Allowed s p ⟨s.stack p, .allIn, s.mark p, s.wager, s.raise⟩
  | raiseAll : s.wager + s.raise ≤ s.bet p + s.stack p →
      Allowed s p ⟨s.stack p, .allIn, s.mark p, s.bet p + s.stack p, s.bet p + s.stack p - s.wager⟩
  | shortAll : s.wager < s.bet p + s.stack p → s.bet p + s.stack p < s.wager + s.raise →
      Allowed s p ⟨s.stack p, .allIn, s.mark p, s.bet p + s.stack p, s.raise⟩

section act
variable [DecidableEq P] (s : Street P) (o : Outcome) {p q : P}

@[simp] theorem act_wager : (s.act p o).wager = o.wager := rfl
@[simp] theorem act_raise : (s.act p o).raise = o.raise := rfl
@[simp] theorem act_prior : (s.act p o).prior = s.prior := rfl
@[simp] theorem act_bet_self : (s.act p o).bet p = s.bet p + o.paid := Function.update_self ..
@[simp] theorem act_stack_self : (s.act p o).stack p = s.stack p - o.paid := Function.update_self ..
@[simp] theorem act_status_self : (s.act p o).status p = o.status := Function.update_self ..
@[simp] theorem act_mark_self : (s.act p o).mark p = o.mark := Function.update_self ..
@[simp] theorem act_bet_ne (h : q ≠ p) : (s.act p o).bet q = s.bet q := Function.update_of_ne h ..
@[simp] theorem act_stack_ne (h : q ≠ p) : (s.act p o).stack q = s.stack q := Function.update_of_ne h ..
@[simp] theorem act_status_ne (h : q ≠ p) : (s.act p o).status q = s.status q := Function.update_of_ne h ..
@[simp] theorem act_mark_ne (h : q ≠ p) : (s.act p o).mark q = s.mark q := Function.update_of_ne h ..

end act

/-! ## What holds of a street -/

structure Sound (least : Nat) (s : Street P) : Prop where
  bet_le : ∀ p, s.bet p ≤ s.wager
  /-- Some player in the hand has put up the wager. -/
  holder : 0 < s.wager → ∃ p, s.InHand p ∧ s.bet p = s.wager
  live_stack : ∀ p, s.status p = .live → 0 < s.stack p
  allIn_stack : ∀ p, s.status p = .allIn → s.stack p = 0
  mark_bet : ∀ p w, s.status p = .live → s.mark p = some w → s.bet p = w
  least_le : least ≤ s.raise
  raise_unopened : s.wager = 0 → s.raise = least

section allowed
variable {s : Street P} {p : P} {o : Outcome} {least : Nat}

theorem Allowed.paid_le (ha : Allowed s p o) (hs : Sound least s) : o.paid ≤ s.stack p := by
  have hb := hs.bet_le p
  cases ha <;> dsimp only <;> omega

/-- The wager never falls, and the player who lifts it has put it up. -/
theorem Allowed.wager_le (ha : Allowed s p o) (hs : Sound least s) :
    s.wager ≤ o.wager ∧ s.bet p + o.paid ≤ o.wager ∧ (s.wager < o.wager → s.bet p + o.paid = o.wager) := by
  have hb := hs.bet_le p
  cases ha <;> dsimp only <;> omega

/-- The least raise never falls, and only a full raise changes it: to its own size. -/
theorem Allowed.raise_le (ha : Allowed s p o) :
    s.raise ≤ o.raise ∧ ((o.wager - s.wager < s.raise → o.raise = s.raise) ∧
      (s.wager < o.wager → s.raise ≤ o.wager - s.wager → o.raise = o.wager - s.wager)) := by
  cases ha <;> dsimp only <;> omega

theorem Allowed.mark (ha : Allowed s p o) : o.mark = if o.status = .live then some o.wager else s.mark p := by
  cases ha <;> simp

theorem Allowed.dealt (ha : Allowed s p o) : o.status ≠ .absent := by
  cases ha <;> simp

theorem Allowed.inHand (ha : Allowed s p o) (hne : o.status ≠ .folded) : o.status = .live ∨ o.status = .allIn := by
  cases ha <;> simp at hne ⊢

variable [DecidableEq P]

/-- A turn that costs nothing settles its player, and asks nobody again. -/
theorem Allowed.free (ha : Allowed s p o) (hs : Sound least s) (hleast : 0 < least) (hlive : s.status p = .live)
    (hfree : o.paid = 0) :
    ¬ (s.act p o).Asked p ∧ ∀ q, q ≠ p → ((s.act p o).Asked q ↔ s.Asked q) := by
  have hbet := hs.bet_le p
  have hstack := hs.live_stack p hlive
  have hraise := hs.least_le
  cases ha with
  | fold h => exact ⟨by simp [Asked], fun q e => by simp [Asked, e]⟩
  | stay h =>
    dsimp only at hfree
    have hmet : ¬ s.bet p < s.wager := by omega
    exact ⟨by simp [Asked, hfree, hmet], fun q e => by simp [Asked, e]⟩
  | raise w h1 h2 => dsimp only at hfree; omega
  | callAll h | raiseAll h | shortAll h h' => dsimp only at hfree; omega

theorem Sound.act (hs : Sound least s) (hlive : s.status p = .live) (hleast : 0 < least) (ha : Allowed s p o) :
    Sound least (s.act p o) := by
  obtain ⟨hw, hbet, hlift⟩ := ha.wager_le hs
  have hpaid := ha.paid_le hs
  have hraise := ha.raise_le
  have hstack := hs.live_stack p hlive
  have hb := hs.bet_le p
  have hl := hs.least_le
  refine ⟨fun q => ?_, fun h0 => ?_, fun q hq => ?_, fun q hq => ?_, fun q w hq hm => ?_, ?_, fun h0 => ?_⟩
  · by_cases e : q = p
    · subst e; simpa using hbet
    · simpa [e] using Nat.le_trans (hs.bet_le q) hw
  · by_cases hup : s.wager < o.wager
    · refine ⟨p, ?_, by simpa using hlift hup⟩
      simp only [InHand, act_status_self]
      exact ha.inHand fun hf => by cases ha <;> simp at hf hup
    · have hsame : o.wager = s.wager := by omega
      obtain ⟨q, hq, hqb⟩ := hs.holder (by simpa [hsame] using h0)
      by_cases e : q = p
      · subst e
        refine ⟨q, ?_, by simp only [act_bet_self, act_wager, hsame]; omega⟩
        simp only [InHand, act_status_self]
        refine ha.inHand fun hf => ?_
        cases ha <;> simp at hf hbet; omega
      · exact ⟨q, by simpa [InHand, e] using hq, by simpa [e, hsame] using hqb⟩
  · by_cases e : q = p
    · subst e
      simp only [act_status_self, act_stack_self] at hq ⊢
      cases ha <;> simp at hq ⊢ <;> omega
    · simp only [act_status_ne _ _ e, act_stack_ne _ _ e] at hq ⊢; exact hs.live_stack q hq
  · by_cases e : q = p
    · subst e
      simp only [act_status_self, act_stack_self] at hq ⊢
      cases ha <;> simp at hq ⊢
    · simp only [act_status_ne _ _ e, act_stack_ne _ _ e] at hq ⊢; exact hs.allIn_stack q hq
  · by_cases e : q = p
    · subst e
      simp only [act_status_self, act_mark_self, act_bet_self] at hq hm ⊢
      cases ha <;> simp at hq hm ⊢ <;> omega
    · simp only [act_status_ne _ _ e, act_mark_ne _ _ e, act_bet_ne _ _ e] at hq hm ⊢; exact hs.mark_bet q w hq hm
  · simp only [act_raise]; omega
  · simp only [act_wager, act_raise] at h0 ⊢
    have h := hs.raise_unopened (by omega)
    rw [← h]; exact (hraise.2.1 (by omega))

theorem held_act (hs : Sound least s) (ha : Allowed s p o) (q : P) : (s.act p o).held q = s.held q := by
  have hpaid := ha.paid_le hs
  by_cases e : q = p
  · subst e; simp only [held, total, act_stack_self, act_bet_self, act_prior]; omega
  · simp [held, total, e]

/-! ## Folded chips are covered -/

/-- Before this street the players differ by at most one chip: nobody put in more than
    `base + 1`, and nobody who is live or has bet on it less than `base`. -/
structure Level (base : Nat) (s : Street P) : Prop where
  le_succ : ∀ p, s.status p ≠ .absent → s.prior p ≤ base + 1
  base_le : ∀ p, s.status p = .live ∨ 0 < s.bet p → base ≤ s.prior p

/-- Whoever folds, a player in the hand has put in as much. -/
def Covered (s : Street P) : Prop := ∀ f, s.status f = .folded → ∃ e, s.InHand e ∧ s.total f ≤ s.total e

theorem Level.act {base : Nat} (hv : Level base s) (hlive : s.status p = .live) (ha : Allowed s p o) :
    Level base (s.act p o) := by
  refine ⟨fun q hq => ?_, fun q hq => ?_⟩
  · by_cases e : q = p
    · subst e; exact hv.le_succ q (by simp [hlive])
    · exact hv.le_succ q (by simpa [e] using hq)
  · by_cases e : q = p
    · subst e; exact hv.base_le q (Or.inl hlive)
    · exact hv.base_le q (by simpa [e] using hq)

theorem Covered.act {base : Nat} (hc : Covered s) (hv : Level base s) (hs : Sound least s) (hlive : s.status p = .live)
    (ha : Allowed s p o) : Covered (s.act p o) := by
  have htot : ∀ q, s.total q ≤ (s.act p o).total q := fun q => by
    by_cases e : q = p
    · subst e; simp [total]
    · simp [total, e]
  -- whoever covered `f` before still does, unless it is the player folding now
  have keep : ∀ f e, s.InHand e → s.total f ≤ s.total e → f ≠ p → o.status ≠ .folded →
      ∃ e, (s.act p o).InHand e ∧ (s.act p o).total f ≤ (s.act p o).total e := fun f e he hfe hf ho => by
    refine ⟨e, ?_, by simpa [total, hf] using Nat.le_trans hfe (htot e)⟩
    by_cases h : e = p
    · subst h; simpa [InHand] using ha.inHand ho
    · simpa [InHand, h] using he
  by_cases ho : o.status = .folded
  · have hbet : s.bet p < s.wager := by cases ha <;> simp_all
    have hpaid : o.paid = 0 := by cases ha <;> simp_all
    obtain ⟨w, hw, hwb⟩ := hs.holder (by omega)
    have hwp : w ≠ p := by intro e; subst e; omega
    have hcover : s.total p ≤ s.total w := by
      have h1 := hv.le_succ p (by simp [hlive])
      have h2 := hv.base_le w (Or.inr (by omega))
      simp only [total]; omega
    intro f hf
    have hwact : (s.act p o).InHand w := by simpa [InHand, hwp] using hw
    by_cases e : f = p
    · subst e
      exact ⟨w, hwact, by simpa [total, hwp, hpaid] using hcover⟩
    · obtain ⟨c, hcin, hcf⟩ := hc f (by simpa [e] using hf)
      by_cases h : c = p
      · subst h
        exact ⟨w, hwact, by simpa [total, e, hwp] using Nat.le_trans hcf hcover⟩
      · exact ⟨c, by simpa [InHand, h] using hcin, by simpa [total, e, h] using hcf⟩
  · intro f hf
    by_cases e : f = p
    · subst e; simp at hf; exact absurd hf ho
    · obtain ⟨c, hcin, hcf⟩ := hc f (by simpa [e] using hf)
      exact keep f c hcin hcf e ho

omit [DecidableEq P] in
/-- So one player in the hand matches them all. -/
theorem Covered.top [Finite P] (hc : Covered s) (hsome : ∃ e, s.InHand e) :
    ∃ e, s.InHand e ∧ ∀ f, s.status f = .folded → s.total f ≤ s.total e := by
  obtain ⟨e, he, hmax⟩ := Set.exists_max_image {e | s.InHand e} s.total (Set.toFinite _) hsome
  refine ⟨e, he, fun f hf => ?_⟩
  obtain ⟨c, hin, hle⟩ := hc f hf
  exact Nat.le_trans hle (hmax c hin)

/-! ## What a turn spends -/

instance (s : Street P) : DecidablePred s.Asked := fun p => inferInstanceAs (Decidable (s.status p = .live ∧ _))

/-- The chips these players have behind. -/
def Street.behind (s : Street P) (players : List P) : Nat := (players.map s.stack).sum

/-- How many of them are still to respond. -/
def Street.owing (s : Street P) (players : List P) : Nat := players.countP fun p => s.Asked p

omit [DecidableEq P] in
theorem owing_le (s : Street P) (players : List P) : s.owing players ≤ players.length := List.countP_le_length

/-- A turn puts chips in, or leaves fewer players to respond. -/
theorem Allowed.spends {players : List P} (ha : Allowed s p o) (hs : Sound least s) (hleast : 0 < least) (hask : s.Asked p)
    (hn : players.Nodup) (hp : p ∈ players) : (s.act p o).behind players < s.behind players ∨
      ((s.act p o).behind players = s.behind players ∧ (s.act p o).owing players < s.owing players) := by
  have hpaid := ha.paid_le hs
  have hsum := Ledger.sum_update hn hp (f := s.stack) (g := (s.act p o).stack) fun q _ hne => act_stack_ne s o hne
  simp only [act_stack_self] at hsum
  by_cases hfree : o.paid = 0
  · obtain ⟨hanswered, hothers⟩ := ha.free hs hleast hask.1 hfree
    refine Or.inr ⟨by simp only [Street.behind]; omega, ?_⟩
    have hperm := List.perm_cons_erase hp
    have hrest : (players.erase p).countP (fun q => (s.act p o).Asked q) = (players.erase p).countP (fun q => s.Asked q) :=
      List.countP_congr fun q hq => by simp [hothers q (hn.mem_erase_iff.mp hq).1]
    simp only [Street.owing, hperm.countP_eq, List.countP_cons, hrest, hask, hanswered]
    simp
  · exact Or.inl (by simp only [Street.behind]; omega)

end allowed

/-! ## The next street -/

/-- The bets pulled in, the marks and the wager cleared. -/
def Street.next (s : Street P) (least : Nat) : Street P :=
  { s with
    bet := fun _ => 0
    prior := s.total
    mark := fun _ => none
    wager := 0
    raise := least }

/-- A street before its first turn. -/
structure Fresh (least : Nat) (s : Street P) : Prop where
  sound : Sound least s
  unmarked : ∀ p, s.mark p = none
  raise_eq : s.raise = least

theorem next_fresh {s : Street P} {least : Nat} (hs : Sound least s) : Fresh least (s.next least) :=
  ⟨⟨fun _ => Nat.le_refl 0, fun h => absurd h (Nat.lt_irrefl 0), hs.live_stack, hs.allIn_stack,
    fun _ _ _ h => by simp [Street.next] at h, Nat.le_refl _, fun _ => rfl⟩, fun _ => rfl, rfl⟩

theorem next_covered {s : Street P} (hc : Covered s) (least : Nat) : Covered (s.next least) := fun f hf => by
  obtain ⟨e, he, hfe⟩ := hc f hf
  exact ⟨e, he, by simpa [Street.next, total] using hfe⟩

/-- Once every live player has matched the wager, the next street is level too. -/
theorem next_level {s : Street P} {base least : Nat} (hv : Level base s) (hs : Sound least s)
    (hdone : ∀ p, s.status p = .live → s.wager ≤ s.bet p) : Level (base + s.wager) (s.next least) := by
  refine ⟨fun p hp => ?_, fun p hp => ?_⟩
  · have h1 := hv.le_succ p hp
    have h2 := hs.bet_le p
    simp only [Street.next, total]; omega
  · rcases hp with hp | hp
    · have h1 := hv.base_le p (Or.inl hp)
      have h2 := hdone p hp
      simp only [Street.next, total]; omega
    · simp [Street.next] at hp

/-! ## Plays and their log -/

/-- Who acted, and the wager the turn left. -/
structure Turn (P : Type) where
  player : P
  wager : Nat
  deriving DecidableEq, Repr

/-- `Play s₀ log s`: the turns of `log`, each by a player who was asked, lead from `s₀` to `s`. -/
inductive Play [DecidableEq P] (s₀ : Street P) : List (Turn P) → Street P → Prop
  | nil : Play s₀ [] s₀
  | snoc {log : List (Turn P)} {s : Street P} {p : P} {o : Outcome} :
      Play s₀ log s → s.Asked p → Allowed s p o → Play s₀ (log ++ [⟨p, o.wager⟩]) (s.act p o)

/-- The wager and the least raise in force after a log. -/
def force (f : Nat × Nat) (t : Turn P) : Nat × Nat :=
  (t.wager, if f.2 ≤ t.wager - f.1 then t.wager - f.1 else f.2)

def forceAfter (f : Nat × Nat) (log : List (Turn P)) : Nat × Nat := log.foldl force f

/-- Some turn raised by at least what was then in force. -/
def anyFull (f : Nat × Nat) : List (Turn P) → Bool
  | [] => false
  | t :: log => f.2 ≤ t.wager - f.1 || anyFull (force f t) log

/-- What the short raises of a log add up to. -/
def shortRises (f : Nat × Nat) : List (Turn P) → Nat
  | [] => 0
  | t :: log => (if f.2 ≤ t.wager - f.1 then 0 else t.wager - f.1) + shortRises (force f t) log

/-- Wagers never fall along the log. -/
def Rising : Nat → List (Turn P) → Prop
  | _, [] => True
  | w, t :: log => w ≤ t.wager ∧ Rising t.wager log

theorem rising_append (f : Nat × Nat) (a b : List (Turn P)) :
    Rising f.1 (a ++ b) ↔ Rising f.1 a ∧ Rising (forceAfter f a).1 b := by
  induction a generalizing f with
  | nil => simp [Rising, forceAfter]
  | cons t a ih =>
    simp only [List.cons_append, Rising, forceAfter, List.foldl_cons, and_assoc]
    exact and_congr_right fun _ => ih (force f t)

theorem force_mono {f : Nat × Nat} {log : List (Turn P)} (h : Rising f.1 log) :
    f.1 ≤ (forceAfter f log).1 ∧ f.2 ≤ (forceAfter f log).2 := by
  induction log generalizing f with
  | nil => exact ⟨Nat.le_refl _, Nat.le_refl _⟩
  | cons t log ih =>
    obtain ⟨h1, h2⟩ := h
    obtain ⟨h3, h4⟩ := ih (f := force f t) h2
    simp only [forceAfter, List.foldl_cons] at h3 h4 ⊢
    refine ⟨Nat.le_trans h1 h3, Nat.le_trans ?_ h4⟩
    simp only [force]; split <;> omega

/-- After a full raise, what is still to come is at least the least raise then in force. -/
theorem full_gap {f : Nat × Nat} {log : List (Turn P)} (h : Rising f.1 log) (hfull : anyFull f log = true) :
    (forceAfter f log).2 ≤ (forceAfter f log).1 - f.1 := by
  induction log generalizing f with
  | nil => simp [anyFull] at hfull
  | cons t log ih =>
    obtain ⟨h1, h2⟩ := h
    have hm := force_mono (f := force f t) h2
    simp only [forceAfter, List.foldl_cons] at hm ⊢
    by_cases hrest : anyFull (force f t) log = true
    · have := ih (f := force f t) h2 hrest
      simp only [forceAfter] at this
      simp only [force] at this hm ⊢; omega
    · simp only [anyFull, hrest, Bool.or_false, decide_eq_true_eq] at hfull
      have hsame : (log.foldl force (force f t)).2 = (force f t).2 := by
        have hno : ∀ (l : List (Turn P)) (g : Nat × Nat), ¬ anyFull g l = true → (l.foldl force g).2 = g.2 := by
          intro l
          induction l with
          | nil => intro g _; rfl
          | cons u l ihl =>
            intro g hg
            simp only [anyFull, Bool.or_eq_true, decide_eq_true_eq, not_or] at hg
            rw [List.foldl_cons, ihl _ hg.2]
            simp only [force, if_neg hg.1]
        exact hno _ _ hrest
      rw [hsame]
      simp only [force, if_pos hfull] at hm ⊢
      omega

theorem shortRises_le {f : Nat × Nat} {log : List (Turn P)} (h : Rising f.1 log) :
    shortRises f log ≤ (forceAfter f log).1 - f.1 := by
  induction log generalizing f with
  | nil => simp [shortRises]
  | cons t log ih =>
    obtain ⟨h1, h2⟩ := h
    have h3 := ih (f := force f t) h2
    have h4 := (force_mono (f := force f t) h2).1
    simp only [shortRises, forceAfter, List.foldl_cons] at h3 h4 ⊢
    simp only [force] at h3 h4 ⊢
    split <;> split at h3 <;> simp_all <;> omega

theorem shortRises_eq {f : Nat × Nat} {log : List (Turn P)} (h : Rising f.1 log) (hno : anyFull f log = false) :
    shortRises f log = (forceAfter f log).1 - f.1 := by
  induction log generalizing f with
  | nil => simp [shortRises, forceAfter]
  | cons t log ih =>
    obtain ⟨h1, h2⟩ := h
    simp only [anyFull, Bool.or_eq_false_iff, decide_eq_false_iff_not] at hno
    have h3 := ih (f := force f t) h2 hno.2
    have h4 := (force_mono (f := force f t) h2).1
    simp only [shortRises, forceAfter, List.foldl_cons, if_neg hno.1] at h3 h4 ⊢
    rw [h3]
    simp only [force] at h4 ⊢; omega

/-- The last entry of its kind splits a list in one way. -/
theorem last_unique {α : Type} {q : α → Prop} {pre post pre' post' : List α} {t t' : α}
    (h : pre ++ t :: post = pre' ++ t' :: post') (ht : q t) (ht' : q t') (hpost : ∀ u ∈ post, ¬ q u)
    (hpost' : ∀ u ∈ post', ¬ q u) : pre = pre' ∧ t = t' ∧ post = post' := by
  rcases List.append_eq_append_iff.mp h with ⟨a, rfl, ha⟩ | ⟨a, rfl, ha⟩
  · cases a with
    | nil => simp only [List.nil_append, List.cons.injEq] at ha; exact ⟨by simp, ha.1, ha.2⟩
    | cons u a =>
      simp only [List.cons_append, List.cons.injEq] at ha
      exact absurd ht' (hpost t' (by rw [ha.2]; simp))
  · cases a with
    | nil => simp only [List.nil_append, List.cons.injEq] at ha; exact ⟨by simp, ha.1.symm, ha.2.symm⟩
    | cons u a =>
      simp only [List.cons_append, List.cons.injEq] at ha
      exact absurd ht (hpost' t (by rw [ha.2]; simp))

/-! ## What a play keeps -/

/-- The last turn of `p` in a log left the wager `w`. -/
def LastTurn (log : List (Turn P)) (p : P) (w : Nat) : Prop :=
  ∃ pre post, log = pre ++ ⟨p, w⟩ :: post ∧ ∀ t ∈ post, t.player ≠ p

theorem LastTurn.snoc {log : List (Turn P)} {p : P} {w : Nat} (h : LastTurn log p w) {t : Turn P} (ht : t.player ≠ p) :
    LastTurn (log ++ [t]) p w := by
  obtain ⟨pre, post, rfl, hpost⟩ := h
  refine ⟨pre, post ++ [t], by simp, fun u hu => ?_⟩
  rcases List.mem_append.mp hu with hu | hu
  · exact hpost u hu
  · simp only [List.mem_singleton] at hu; subst hu; exact ht

section play
variable [DecidableEq P] {s₀ s : Street P} {log : List (Turn P)} {least : Nat}

theorem Play.sound (h : Play s₀ log s) (hf : Fresh least s₀) (hleast : 0 < least) : Sound least s := by
  induction h with
  | nil => exact hf.sound
  | snoc _ hask ha ih => exact ih.act hask.1 hleast ha

theorem Play.held (h : Play s₀ log s) (hf : Fresh least s₀) (hleast : 0 < least) (q : P) : s.held q = s₀.held q := by
  induction h with
  | nil => rfl
  | snoc h _ ha ih => rw [held_act (h.sound hf hleast) ha, ih]

theorem Play.covered {base : Nat} (h : Play s₀ log s) (hf : Fresh least s₀) (hleast : 0 < least) (hv : Level base s₀)
    (hc : Covered s₀) : Level base s ∧ Covered s := by
  induction h with
  | nil => exact ⟨hv, hc⟩
  | snoc h hask ha ih => exact ⟨ih.1.act hask.1 ha, ih.2.act ih.1 (h.sound hf hleast) hask.1 ha⟩

/-- The log determines the wager and the least raise in force. -/
theorem Play.force (h : Play s₀ log s) (hf : Fresh least s₀) (hleast : 0 < least) :
    forceAfter (s₀.wager, s₀.raise) log = (s.wager, s.raise) ∧ Rising s₀.wager log := by
  induction h with
  | nil => exact ⟨rfl, trivial⟩
  | @snoc log s p o h _ ha ih =>
    have hs := h.sound hf hleast
    obtain ⟨hup, _, _⟩ := ha.wager_le hs
    obtain ⟨_, hlow, hfull⟩ := ha.raise_le
    have hl := hs.least_le
    have hfa : forceAfter (s₀.wager, s₀.raise) (log ++ [⟨p, o.wager⟩])
        = Betting.force (s.wager, s.raise) ⟨p, o.wager⟩ := by
      rw [← ih.1]; simp [forceAfter]
    refine ⟨?_, (rising_append (s₀.wager, s₀.raise) log _).mpr ⟨ih.2, ?_⟩⟩
    · rw [hfa]
      simp only [Betting.force, act_wager, act_raise, Prod.mk.injEq, true_and]
      split
      · rename_i hge; exact (hfull (by omega) hge).symm
      · rename_i hlt; exact (hlow (by omega)).symm
    · rw [ih.1]; exact ⟨hup, trivial⟩

/-- A live player's mark is the wager their last turn left. -/
theorem Play.mark (h : Play s₀ log s) (hf : Fresh least s₀) (p : P) (hp : s.status p = .live) :
    (s.mark p = none → ∀ t ∈ log, t.player ≠ p) ∧ (∀ w, s.mark p = some w → LastTurn log p w) := by
  induction h with
  | nil => exact ⟨fun _ _ ht => (List.not_mem_nil ht).elim, fun w hw => by rw [hf.unmarked p] at hw; cases hw⟩
  | @snoc log s q o _ hask ha ih =>
    by_cases e : p = q
    · subst e
      have ho : o.mark = some o.wager := by
        simp only [act_status_self] at hp
        cases ha <;> simp at hp ⊢
      simp only [act_mark_self, ho]
      refine ⟨fun h => (Option.some_ne_none _ h).elim, fun w hw => ?_⟩
      obtain rfl := Option.some.inj hw
      exact ⟨log, [], rfl, fun _ ht => (List.not_mem_nil ht).elim⟩
    · simp only [act_status_ne _ _ e, act_mark_ne _ _ e] at hp ⊢
      obtain ⟨h1, h2⟩ := ih hp
      refine ⟨fun hn t ht => ?_, fun w hw => (h2 w hw).snoc (Ne.symm e)⟩
      rcases List.mem_append.mp ht with ht | ht
      · exact h1 hn t ht
      · simp only [List.mem_singleton] at ht; subst ht; exact Ne.symm e

/-- Raising is open to a live player exactly when they have had no turn, or since their
    last one there was a full raise, or short ones that add up to the least raise now. -/
theorem Play.open_iff (h : Play s₀ log s) (hf : Fresh least s₀) (hleast : 0 < least) (p : P) (hp : s.status p = .live) :
    s.Open p ↔ (∀ t ∈ log, t.player ≠ p) ∨ ∃ pre w post, log = pre ++ ⟨p, w⟩ :: post ∧ (∀ t ∈ post, t.player ≠ p) ∧
      (anyFull (forceAfter (s₀.wager, s₀.raise) (pre ++ [⟨p, w⟩])) post = true ∨
        s.raise ≤ shortRises (forceAfter (s₀.wager, s₀.raise) (pre ++ [⟨p, w⟩])) post) := by
  obtain ⟨hnone, hsome⟩ := h.mark hf p hp
  obtain ⟨hforce, hrise⟩ := h.force hf hleast
  have hpos : 0 < s.raise := Nat.lt_of_lt_of_le hleast (h.sound hf hleast).least_le
  -- the gap since a turn of `p`, read off the log after it
  have since : ∀ pre w post, log = pre ++ ⟨p, w⟩ :: post →
      Rising (forceAfter (s₀.wager, s₀.raise) (pre ++ [⟨p, w⟩])).1 post ∧
      forceAfter (forceAfter (s₀.wager, s₀.raise) (pre ++ [⟨p, w⟩])) post = (s.wager, s.raise) ∧
      (forceAfter (s₀.wager, s₀.raise) (pre ++ [⟨p, w⟩])).1 = w := by
    rintro pre w post rfl
    rw [show pre ++ ⟨p, w⟩ :: post = (pre ++ [⟨p, w⟩]) ++ post by simp] at hrise hforce
    refine ⟨((rising_append (s₀.wager, s₀.raise) _ _).mp hrise).2, ?_, by simp [forceAfter, Betting.force]⟩
    rw [← hforce]; simp [forceAfter]
  constructor
  · intro hopen
    cases hm : s.mark p with
    | none => exact Or.inl (hnone hm)
    | some w =>
      obtain ⟨pre, post, hlog, hpost⟩ := hsome w hm
      obtain ⟨hr, hfa, hw⟩ := since pre w post hlog
      refine Or.inr ⟨pre, w, post, hlog, hpost, ?_⟩
      cases hfull : anyFull (forceAfter (s₀.wager, s₀.raise) (pre ++ [⟨p, w⟩])) post with
      | true => exact Or.inl rfl
      | false =>
        right
        rw [shortRises_eq hr hfull, hfa, hw]
        exact hopen w hm
  · rintro (hnever | ⟨pre, w, post, hlog, hpost, hraise⟩) v hv
    · obtain ⟨pre, post, rfl, _⟩ := hsome v hv
      exact absurd rfl (hnever ⟨p, v⟩ (by simp))
    · -- the last turn of `p` is the one split off
      obtain ⟨hr, hfa, hw⟩ := since pre w post hlog
      have hvw : v = w := by
        obtain ⟨pre', post', hlog', hpost'⟩ := hsome v hv
        have := last_unique (q := fun t : Turn P => t.player = p) (hlog.symm.trans hlog') rfl rfl hpost hpost'
        exact ((Turn.mk.injEq ..).mp this.2.1).2.symm
      subst hvw
      rcases hraise with hfull | hshort
      · have := full_gap hr hfull
        rwa [hfa, hw] at this
      · have := shortRises_le hr
        rw [hfa, hw] at this
        exact Nat.le_trans hshort this

omit [DecidableEq P] in
theorem unchanged_of_no_rise {f : Nat × Nat} {a : List (Turn P)} (h : Rising f.1 a)
    (hno : ∀ b u c, a = b ++ u :: c → u.wager ≤ (forceAfter f b).1) : (forceAfter f a).1 = f.1 := by
  induction a generalizing f with
  | nil => rfl
  | cons t a ih =>
    have h0 := hno [] t a rfl
    have h1 : t.wager = f.1 := Nat.le_antisymm h0 h.1
    have := ih (f := Betting.force f t) h.2 fun b u c hb => hno (t :: b) u c (by rw [hb]; rfl)
    simp only [forceAfter, List.foldl_cons] at this ⊢
    rw [this]; exact h1

/-- A player who has acted is asked again only after another raised the wager. -/
theorem Play.asked_again (h : Play s₀ log s) (hf : Fresh least s₀) (hleast : 0 < least) {p : P} (hask : s.Asked p)
    {a b : List (Turn P)} {t : Turn P} (hlog : log = a ++ t :: b) (htp : t.player = p) :
    ∃ c u d, b = c ++ u :: d ∧ u.player ≠ p ∧ (forceAfter (s₀.wager, s₀.raise) (a ++ t :: c)).1 < u.wager := by
  obtain ⟨hlive, hask⟩ := hask
  obtain ⟨hnone, hsome⟩ := h.mark hf p hlive
  obtain ⟨hforce, hrise⟩ := h.force hf hleast
  cases hm : s.mark p with
  | none => exact absurd htp (hnone hm t (by rw [hlog]; simp))
  | some w =>
    have hw : w < s.wager := by
      rcases hask with h' | h'
      · rw [hm] at h'; cases h'
      · rwa [(h.sound hf hleast).mark_bet p w hlive hm] at h'
    obtain ⟨pre, post, hlog', hpost⟩ := hsome w hm
    -- the last turn of `p` is `t` or a later one, so what follows it is a tail of `b`
    obtain ⟨b₀, hb⟩ : ∃ b₀, b = b₀ ++ post ∧ pre ++ [⟨p, w⟩] = a ++ t :: b₀ := by
      rw [hlog] at hlog'
      rcases List.append_eq_append_iff.mp hlog' with ⟨x, rfl, hx⟩ | ⟨x, rfl, hx⟩
      · cases x with
        | nil => simp only [List.nil_append, List.cons.injEq] at hx; exact ⟨[], hx.2, by simp [hx.1]⟩
        | cons y x =>
          simp only [List.cons_append, List.cons.injEq] at hx
          exact ⟨x ++ [⟨p, w⟩], by rw [hx.2]; simp, by rw [hx.1]; simp⟩
      · cases x with
        | nil => simp only [List.nil_append, List.cons.injEq] at hx; exact ⟨[], hx.2.symm, by simp [hx.1]⟩
        | cons y x =>
          simp only [List.cons_append, List.cons.injEq] at hx
          exact absurd htp (hpost t (by rw [hx.2]; simp))
    have hall : log = (pre ++ [⟨p, w⟩]) ++ post := by rw [hlog']; simp
    have hfpre : (forceAfter (s₀.wager, s₀.raise) (pre ++ [⟨p, w⟩])).1 = w := by simp [forceAfter, Betting.force]
    have hrpost : Rising (forceAfter (s₀.wager, s₀.raise) (pre ++ [⟨p, w⟩])).1 post :=
      ((rising_append (s₀.wager, s₀.raise) _ _).mp (hall ▸ hrise)).2
    have hfpost : (forceAfter (forceAfter (s₀.wager, s₀.raise) (pre ++ [⟨p, w⟩])) post).1 = s.wager := by
      rw [hall] at hforce
      simp only [forceAfter, List.foldl_append] at hforce ⊢
      rw [hforce]
    by_cases hex : ∃ c u d, post = c ++ u :: d ∧
        (forceAfter (forceAfter (s₀.wager, s₀.raise) (pre ++ [⟨p, w⟩])) c).1 < u.wager
    · obtain ⟨c, u, d, hpd, hu⟩ := hex
      refine ⟨b₀ ++ c, u, d, by rw [hb.1, hpd]; simp, hpost u (by rw [hpd]; simp), ?_⟩
      rw [hb.2] at hu
      simpa [forceAfter] using hu
    · have hflat := unchanged_of_no_rise hrpost fun c u d hc => by
        by_contra hlt
        exact hex ⟨c, u, d, hc, by omega⟩
      rw [hfpost, hfpre] at hflat
      omega

/-- Between two turns of one player, another raised the wager. -/
theorem Play.once (h : Play s₀ log s) (hf : Fresh least s₀) (hleast : 0 < least) {a b c : List (Turn P)} {t u : Turn P}
    (hlog : log = a ++ t :: (b ++ u :: c)) (htu : t.player = u.player) :
    ∃ x v y, b = x ++ v :: y ∧ v.player ≠ t.player ∧ (forceAfter (s₀.wager, s₀.raise) (a ++ t :: x)).1 < v.wager := by
  induction h generalizing c with
  | nil => simp at hlog
  | @snoc log s p o h hask _ ih =>
    rcases List.eq_nil_or_concat c with rfl | ⟨c', v, rfl⟩
    · have hsplit : log ++ [⟨p, o.wager⟩] = (a ++ t :: b) ++ [u] := by rw [hlog]; simp
      obtain ⟨rfl, hu⟩ := List.append_inj' hsplit rfl
      obtain rfl : (⟨p, o.wager⟩ : Turn P) = u := by simpa using hu
      rw [htu]
      exact h.asked_again hf hleast hask rfl htu
    · have hsplit : log ++ [⟨p, o.wager⟩] = (a ++ t :: (b ++ u :: c')) ++ [v] := by rw [hlog]; simp
      exact ih (List.append_inj' hsplit rfl).1

end play

end Betting
