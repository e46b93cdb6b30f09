/-
  OpenFelt.Game.Lifecycle — the posts a table takes for missed blinds
  (`src/game/lifecycle.rs`, `begin_hand`).
-/

import OpenFelt.Game.Opening
import OpenFelt.Game.Table

namespace OpenFelt

open MultiwayHand

/-! ## Missed blinds -/

/-- What a seat with this obligation posts: a missed small blind dead, a missed big blind
    live, each unless the seat is in that blind anyway. -/
def BlindObligation.posts (smallBlindSeat bigBlindSeat seat : SeatId) : BlindObligation → List ForcedPost
  | clear => []
  | owesSmallBlind => if seat ≠ smallBlindSeat then [⟨seat, smallBlind, false⟩] else []
  | owesBigBlind => if seat ≠ bigBlindSeat then [⟨seat, bigBlind, true⟩] else []
  | owesBoth =>
    (if seat ≠ smallBlindSeat then [⟨seat, smallBlind, false⟩] else []) ++
      if seat ≠ bigBlindSeat then [⟨seat, bigBlind, true⟩] else []

/-- The posts `begin_hand` takes from the seats it deals in. -/
def forcedPosts (smallBlindSeat bigBlindSeat : SeatId) (obligations : List (SeatId × BlindObligation)) : List ForcedPost :=
  obligations.flatMap fun entry => entry.2.posts smallBlindSeat bigBlindSeat entry.1

theorem posts_dead (sb bb seat p : SeatId) (o : BlindObligation) :
    Ledger.credited (((o.posts sb bb seat).filter fun post => !post.live).map fun post => (post.seat, post.amount)) p ≤
      if seat = p then 1 else 0 := by
  have small : ∀ n : Prop, [Decidable n] → Ledger.credited
      (((if n then [(⟨seat, smallBlind, false⟩ : ForcedPost)] else []).filter fun post => !post.live).map
        fun post => (post.seat, post.amount)) p ≤ if seat = p then 1 else 0 := fun n _ => by
    split <;> simp [smallBlind]
  have big : ∀ n : Prop, [Decidable n] →
      ((if n then [(⟨seat, bigBlind, true⟩ : ForcedPost)] else []).filter fun post => !post.live) = [] := fun n _ => by
    split <;> simp
  cases o with
  | clear => exact Nat.zero_le _
  | owesSmallBlind => exact small _
  | owesBigBlind => rw [BlindObligation.posts, big]; exact Nat.zero_le _
  | owesBoth => rw [BlindObligation.posts, List.filter_append, big, List.append_nil]; exact small _

/-- Posts taken by `begin_hand` ask no seat for more than one dead chip. -/
theorem forcedPosts_backed {c : HandConfig} {sb bb : SeatId} {obligations : List (SeatId × BlindObligation)}
    (hn : (obligations.map (·.1)).Nodup) (hposts : c.forcedPosts = forcedPosts sb bb obligations) : c.Backed := by
  intro p
  rw [HandConfig.deadPosts, hposts]
  have hbound : Ledger.credited (((forcedPosts sb bb obligations).filter fun post => !post.live).map
      fun post => (post.seat, post.amount)) p ≤ if p ∈ obligations.map (·.1) then 1 else 0 := by
    clear hposts
    induction obligations with
    | nil => exact Nat.zero_le _
    | cons entry rest ih =>
      obtain ⟨hnew, hn⟩ := List.nodup_cons.mp hn
      have h1 := ih hn
      have h2 := posts_dead sb bb entry.1 p entry.2
      rw [forcedPosts, List.flatMap_cons, List.filter_append, List.map_append, Ledger.credited_append, ← forcedPosts]
      by_cases e : entry.1 = p
      · subst e
        rw [if_neg hnew] at h1
        rw [if_pos rfl] at h2
        rw [if_pos (by simp)]; omega
      · rw [if_neg e] at h2
        have hmem : p ∈ (entry :: rest).map (·.1) ↔ p ∈ rest.map (·.1) := by simp [Ne.symm e]
        simp only [hmem]; omega
  refine Nat.le_trans hbound ?_
  split <;> omega

end OpenFelt
