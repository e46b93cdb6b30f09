/-
  OpenFelt.Game.HeadsUp — a street two players have to themselves, read off its records.

  In a `Duel` the two take turns, the first of them at every even record, and each turn
  checks, calls, bets or raises by the amounts the record states (`Action.plays`).
  Proved: where the two seats are live and nobody else acts, folds or goes all in, a
  street from its fresh start is a duel, and whoever is asked next is the one whose turn
  the count of records says (`Dueling.turn_of_asked`).
-/

import Mathlib.Logic.Function.Basic
import OpenFelt.Game.StreetRecords

namespace OpenFelt

open Betting

/-- The player's bet and the wager after a turn of a duel; nothing where it is no such turn. -/
def Action.plays (bet wager : Nat) : Action → Option (Nat × Nat)
  | .check => if bet = wager then some (bet, wager) else none
  | .call n => if bet < wager ∧ n = wager - bet then some (wager, wager) else none
  | .bet n => if wager = 0 ∧ bet = 0 ∧ 0 < n then some (n, n) else none
  | .raise n => if bet < wager ∧ wager < n then some (n, n) else none
  | .fold | .allIn _ => none

/-- Neither a fold nor an all-in. -/
def Action.stays : Action → Bool
  | .fold | .allIn _ => false
  | .check | .call _ | .bet _ | .raise _ => true

/-- Who acts after `n` turns. -/
def turnAfter (n : Nat) : Fin 2 := Fin.ofNat 2 n

theorem turnAfter_succ (n : Nat) : turnAfter (n + 1) = turnAfter n + 1 := by
  apply Fin.ext
  show (n + 1) % 2 = (n % 2 + 1) % 2
  omega

theorem eq_turnAfter_succ {n : Nat} {k : Fin 2} (hne : k ≠ turnAfter n) : k = turnAfter (n + 1) := by
  apply Fin.ext
  have hval : k.val ≠ n % 2 := fun he => hne (Fin.ext he)
  have hk := k.isLt
  show k.val = (n + 1) % 2
  omega

/-- The two take turns, and leave these bets and this wager. -/
inductive Duel (player : Fin 2 → SeatId) : List MultiwayActionRecord → (Fin 2 → Nat) → Nat → Prop
  | nil : Duel player [] (fun _ => 0) 0
  | snoc {records : List MultiwayActionRecord} {bets : Fin 2 → Nat} {wager bet' wager' : Nat} {record : MultiwayActionRecord} :
      Duel player records bets wager → record.seat = player (turnAfter records.length) →
      record.action.plays (bets (turnAfter records.length)) wager = some (bet', wager') → record.wagerAfter = wager' →
      Duel player (records ++ [record]) (Function.update bets (turnAfter records.length) bet') wager'

/-- The street after the records of a duel. -/
structure Dueling (least : Nat) (player : Fin 2 → SeatId) (records : List MultiwayActionRecord) (s : Street SeatId) : Prop where
  sound : Sound least s
  duel : Duel player records (fun k => s.bet (player k)) s.wager
  /-- Whoever acted last is at the wager. -/
  rested : ∀ n, records.length = n + 1 → s.mark (player (turnAfter n)) ≠ none ∧ s.bet (player (turnAfter n)) = s.wager
  unmarked : ∀ k, s.mark (player k) = none → s.bet (player k) = 0

section duel
variable {least : Nat} {player : Fin 2 → SeatId} {records : List MultiwayActionRecord} {record : MultiwayActionRecord}
  {s s₀ : Street SeatId} {o : Outcome} {k : Fin 2}

/-! ## Whose turn it is -/

theorem Dueling.turn_of_asked (hd : Dueling least player records s) (hasked : s.Asked (player k))
    (hfirst : records = [] → k = 0) :
    k = turnAfter records.length := by
  rcases hlen : records.length with _ | n
  · exact hfirst (List.length_eq_zero_iff.mp hlen)
  · refine eq_turnAfter_succ ?_
    intro hk
    obtain ⟨hmark, hbet⟩ := hd.rested n hlen
    rw [← hk] at hmark hbet
    rcases hasked.2 with hnone | hlt
    · exact hmark hnone
    · omega

/-! ## One turn -/

/-- What a turn that keeps its player live does to their bet. -/
theorem plays_of_fits {q : SeatId} (hs : Sound least s) (hasked : s.Asked q) (hunmarked : s.mark q = none → s.bet q = 0)
    (ha : Allowed s q o) (hlive : o.status = .live) (hfits : record.action.Fits (s.bet q) s.wager o.wager)
    (hstays : record.action.stays = true) :
    record.action.plays (s.bet q) s.wager = some (s.bet q + o.paid, o.wager) ∧ s.bet q + o.paid = o.wager := by
  have hbet := hs.bet_le q
  have hwager : s.bet q + o.paid = o.wager := by
    cases ha with
    | stay h => dsimp only; omega
    | raise w h _ => dsimp only; omega
    | fold | callAll | raiseAll | shortAll => cases hlive
  refine ⟨?_, hwager⟩
  rw [hwager]
  cases haction : record.action with
  | fold => rw [haction] at hstays; cases hstays
  | allIn n => rw [haction] at hstays; cases hstays
  | check =>
    rw [haction] at hfits
    obtain ⟨hat, hsame⟩ := hfits
    rw [Action.plays, if_pos hat, hat, hsame]
  | call n =>
    rw [haction] at hfits
    obtain ⟨hpos, hcost, hsame⟩ := hfits
    rw [Action.plays, if_pos ⟨by omega, by omega⟩, hsame]
  | bet n =>
    rw [haction] at hfits
    obtain ⟨hzero, hpos, hto⟩ := hfits
    rw [Action.plays, if_pos ⟨hzero, by omega, hpos⟩, hto]
  | raise n =>
    rw [haction] at hfits
    obtain ⟨hpos, hlt, hto⟩ := hfits
    -- nobody raises a wager that is their own
    have hbelow : s.bet q < s.wager := by
      rcases hasked.2 with hnone | hbelow
      · rw [hunmarked hnone]
        exact hpos
      · exact hbelow
    rw [Action.plays, if_pos ⟨hbelow, hlt⟩, hto]

theorem Dueling.act (hd : Dueling least player records s) (hinj : Function.Injective player) (hleast : 0 < least)
    (hseat : record.seat = player k) (hasked : s.Asked record.seat) (hfirst : records = [] → k = 0)
    (ha : Allowed s record.seat o) (hlive : o.status = .live) (hafter : record.wagerAfter = o.wager)
    (hfits : record.action.Fits (s.bet record.seat) s.wager o.wager) (hstays : record.action.stays = true) :
    Dueling least player (records ++ [record]) (s.act record.seat o) := by
  rw [hseat] at hasked ha hfits ⊢
  obtain rfl := hd.turn_of_asked hasked hfirst
  obtain ⟨hplays, hwager⟩ := plays_of_fits hd.sound hasked (hd.unmarked _) ha hlive hfits hstays
  have hmark : o.mark = some o.wager := by rw [ha.mark, if_pos hlive]
  have hbets : (fun k => (s.act (player (turnAfter records.length)) o).bet (player k)) =
      Function.update (fun k => s.bet (player k)) (turnAfter records.length)
        (s.bet (player (turnAfter records.length)) + o.paid) := by
    funext j
    by_cases hj : j = turnAfter records.length
    · rw [hj, act_bet_self, Function.update_self]
    · rw [act_bet_ne _ _ fun he => hj (hinj he), Function.update_of_ne hj]
  refine ⟨hd.sound.act hasked.1 hleast ha, ?_, ?_, ?_⟩
  · rw [hbets]
    exact hd.duel.snoc hseat hplays hafter
  · intro n hn
    obtain rfl : n = records.length := by
      rw [List.length_append, List.length_singleton] at hn
      omega
    rw [act_mark_self, act_bet_self, hmark]
    exact ⟨Option.some_ne_none _, hwager⟩
  · intro j hj
    by_cases hjk : j = turnAfter records.length
    · rw [hjk, act_mark_self, hmark] at hj
      cases hj
    · have hne : player j ≠ player (turnAfter records.length) := fun he => hjk (hinj he)
      rw [act_mark_ne _ _ hne] at hj
      rw [act_bet_ne _ _ hne]
      exact hd.unmarked j hj

/-! ## A street -/

/-- The two seats are live, and nobody else acted, folded or went all in. -/
structure TwoLeft (player : Fin 2 → SeatId) (records : List MultiwayActionRecord) (s : Street SeatId) : Prop where
  distinct : Function.Injective player
  live : ∀ k, s.status (player k) = .live
  seats : ∀ record ∈ records, ∃ k, record.seat = player k
  stays : ∀ record ∈ records, record.action.stays = true
  first : ∀ record, records.head? = some record → record.seat = player 0

theorem Recounts.dueling (hr : Recounts s₀ records s) (hfresh : Fresh least s₀) (hzero : s₀.wager = 0) (hleast : 0 < least)
    (ht : TwoLeft player records s) : Dueling least player records s := by
  induction hr with
  | nil =>
    have hbets : ∀ q, s₀.bet q = 0 := fun q => Nat.le_zero.mp (hzero ▸ hfresh.sound.bet_le q)
    refine ⟨hfresh.sound, ?_, ?_, fun k _ => hbets _⟩
    · simp only [hbets, hzero]
      exact .nil
    · intro n hn
      cases hn
  | @snoc records s record o hr hasked ha hafter hfits ih =>
    obtain ⟨k, hk⟩ := ht.seats record (List.mem_append_right _ (List.mem_singleton_self _))
    -- whoever is live at the end was live all along
    have hbefore : ∀ j, s.status (player j) = .live := by
      intro j
      by_cases hj : player j = record.seat
      · rw [hj]
        exact hasked.1
      · have hlater := ht.live j
        rwa [act_status_ne _ _ hj] at hlater
    have hstatus : o.status = .live := by
      have hlater := ht.live k
      rwa [← hk, act_status_self] at hlater
    have hd := ih ⟨ht.distinct, hbefore, fun r hr => ht.seats r (List.mem_append_left _ hr),
      fun r hr => ht.stays r (List.mem_append_left _ hr), fun r hr => ht.first r (by rw [List.head?_append, hr]; rfl)⟩
    have hfirst : records = [] → k = 0 := by
      intro hnil
      subst hnil
      exact ht.distinct (hk.symm.trans (ht.first record rfl))
    exact hd.act ht.distinct hleast hk hasked hfirst ha hstatus hafter hfits
      (ht.stays record (List.mem_append_right _ (List.mem_singleton_self _)))

end duel

end OpenFelt
