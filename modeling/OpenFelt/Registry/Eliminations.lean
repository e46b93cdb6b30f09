/-
  OpenFelt.Registry.Eliminations — what a refused hand leaves behind
  (`src/tournament.rs`, `complete_hand`).

  The checks and the removals of the busted seats are one loop, so a hand refused at a
  later seat has already lost the players of the earlier ones (`eliminate_refused`), and
  the totals are compared nowhere. A result is taken whole exactly when nothing is written
  before the call is refused, or the call is accepted and the chips add up
  (`takes_whole_iff`).
-/

import OpenFelt.Registry.Accepts
import OpenFelt.Registry.Clock

namespace OpenFelt

namespace TournamentController

variable {c : TournamentController} {starting final : List (SeatId × Nat)}

/-! ## A result taken whole -/

/-- Nothing that a hand may change has changed. -/
structure Untouched (c c' : TournamentController) : Prop where
  remaining : c'.remaining = c.remaining
  standings : c'.standings = c.standings
  level : c'.levelIndex = c.levelIndex
  levelElapsed : c'.levelElapsedMillis = c.levelElapsedMillis
  breakRemaining : c'.breakRemainingMillis = c.breakRemainingMillis
  hands : c'.handsCompleted = c.handsCompleted
  status : c'.status = c.status

theorem Untouched.refl (c : TournamentController) : Untouched c c := ⟨rfl, rfl, rfl, rfl, rfl, rfl, rfl⟩

/-- A refused result changes nothing; an accepted one has the chips that the hand began with. -/
structure TakesWhole (c : TournamentController) (starting final : List (SeatId × Nat)) : Prop where
  refused : ∀ error, (c.completeHand starting final).1 = .error error → Untouched c (c.completeHand starting final).2
  accepted : (c.completeHand starting final).1 = .ok () → (final.map (·.2)).sum = (starting.map (·.2)).sum

/-- The seat is that of an entrant who has not been eliminated. -/
def StillIn (c : TournamentController) (seat : SeatId) : Prop :=
  ∃ player, c.entrants.entries.find? (fun entrant => entrant.2 = seat) = some (player, seat) ∧ c.remaining.contains player = true

/-- The call is refused before it writes, or it is accepted and the chips add up. -/
def SafeResult (c : TournamentController) (starting final : List (SeatId × Nat)) : Prop :=
  ¬ c.Playing ∨ (¬ ∀ q, q ∈ starting.map (·.1) ↔ q ∈ final.map (·.1)) ∨
    (∃ seat stack rest, bustedSeats (stacksBySeat starting) (stacksBySeat final) = (seat, stack) :: rest ∧ ¬ c.StillIn seat) ∨
    (c.Takes starting final ∧ (final.map (·.2)).sum = (starting.map (·.2)).sum)

/-! ## The loop -/

/-- Nobody comes back. -/
theorem eliminate_shrinks (n i : Nat) (l : List (SeatId × Nat)) (c : TournamentController) {p : PlayerId}
    (h : (eliminate n i l c).2.remaining.contains p = true) : c.remaining.contains p = true := by
  induction l generalizing i c with
  | nil => exact h
  | cons e rest ih =>
    unfold eliminate at h
    split at h
    · exact h
    · rename_i player seat _
      have herased : ∀ q, (c.remaining.erase player).contains q = true → c.remaining.contains q = true := by
        intro q hq
        by_cases hqp : q = player
        · rw [hqp, OrdMap.contains, OrdMap.find_erase_self] at hq
          cases hq
        · rwa [OrdMap.contains, OrdMap.find_erase_ne hqp] at hq
      split at h
      · exact h
      · dsimp only at h
        split at h
        · exact herased p h
        · exact herased p (ih (i + 1) _ h)

/-- A first seat that is not still in is refused before anything is written. -/
theorem eliminate_stranger {n i : Nat} {seat : SeatId} {stack : Nat} {rest : List (SeatId × Nat)} (h : ¬ c.StillIn seat) :
    (eliminate n i ((seat, stack) :: rest) c).2 = c := by
  unfold eliminate
  cases hfind : c.entrants.entries.find? fun entrant => entrant.2 = seat with
  | none => rfl
  | some entrant =>
    obtain ⟨player, place⟩ := entrant
    have hseat := List.find?_some hfind
    obtain rfl : place = seat := of_decide_eq_true hseat
    have hout : c.remaining.contains player ≠ true := fun hin => h ⟨player, hfind, hin⟩
    dsimp only
    rw [if_pos (by simpa using hout)]

/-- Past a first seat that is still in, its player is gone, whatever becomes of the rest. -/
theorem eliminate_removes {n i : Nat} {seat : SeatId} {stack : Nat} {rest : List (SeatId × Nat)} (h : c.StillIn seat) :
    (eliminate n i ((seat, stack) :: rest) c).2.remaining ≠ c.remaining := by
  obtain ⟨player, hfind, hin⟩ := h
  have hgone : (eliminate n i ((seat, stack) :: rest) c).2.remaining.contains player ≠ true := by
    have herased : (c.remaining.erase player).contains player ≠ true := by
      rw [OrdMap.contains, OrdMap.find_erase_self]
      simp
    unfold eliminate
    rw [hfind]
    dsimp only
    rw [if_neg (by rw [hin]; simp)]
    split
    · exact herased
    · intro hback
      exact herased (eliminate_shrinks n (i + 1) rest _ hback)
  intro he
  rw [he] at hgone
  exact hgone hin

/-! ## The call -/

/-- A result that is not about one set of seats is refused at once, and so is one out of play. -/
theorem completeHand_refused_early (h : ¬ c.Playing ∨ ¬ ∀ q, q ∈ starting.map (·.1) ↔ q ∈ final.map (·.1)) :
    (c.completeHand starting final).2 = c := by
  unfold completeHand
  by_cases hcomplete : c.status = .complete
  · rw [if_pos hcomplete]
  by_cases hplaying : c.status = .running ∨ c.status = .break
  · have hseats : ¬ ∀ q, q ∈ starting.map (·.1) ↔ q ∈ final.map (·.1) := h.resolve_left (not_not_intro hplaying)
    rw [if_neg hcomplete, if_neg (not_not_intro hplaying)]
    dsimp only
    refine congrArg Prod.snd (if_pos ?_)
    refine Bool.eq_true_of_not_eq_false ?_
    intro hsame
    refine hseats fun q => ?_
    rw [← contains_stacksBySeat, ← contains_stacksBySeat]
    exact sameSeats_iff.mp hsame q
  · rw [if_neg hcomplete, if_pos hplaying]

/-- A refused result about one set of seats leaves what the loop leaves. -/
theorem completeHand_refused (hplaying : c.Playing) (hseats : ∀ q, q ∈ starting.map (·.1) ↔ q ∈ final.map (·.1))
    {error : TournamentError}
    (h : (c.completeHand starting final).1 = .error error) : (c.completeHand starting final).2 =
      (eliminate c.remaining.size 0 (bustedSeats (stacksBySeat starting) (stacksBySeat final)) c).2 := by
  have hopen : c.status ≠ .complete := by
    intro hcomplete
    rcases hplaying with hp | hp <;> rw [hcomplete] at hp <;> cases hp
  have hsame : ((stacksBySeat starting).size ≠ (stacksBySeat final).size ||
      (stacksBySeat starting).keys.any fun seat => !(stacksBySeat final).contains seat) = false := by
    rw [sameSeats_iff]
    intro q
    rw [contains_stacksBySeat, contains_stacksBySeat]
    exact hseats q
  unfold completeHand at h ⊢
  unfold Playing at hplaying
  rw [if_neg hopen, if_neg (not_not_intro hplaying)] at h ⊢
  dsimp only at h ⊢
  rw [hsame, if_neg (by simp)] at h ⊢
  generalize eliminate c.remaining.size 0 (bustedSeats (stacksBySeat starting) (stacksBySeat final)) c = out at h ⊢
  obtain ⟨result, left⟩ := out
  cases result with
  | error e => rfl
  | ok u => cases h

/-- With seats and status in order, a refusal that writes nothing is one at the first busted seat. -/
theorem stranger_of_untouched (hplaying : c.Playing) (hseats : ∀ q, q ∈ starting.map (·.1) ↔ q ∈ final.map (·.1))
    {error : TournamentError}
    (h : (c.completeHand starting final).1 = .error error) (hu : Untouched c (c.completeHand starting final).2) :
    ∃ seat stack rest, bustedSeats (stacksBySeat starting) (stacksBySeat final) = (seat, stack) :: rest ∧ ¬ c.StillIn seat := by
  have hkept := hu.remaining
  rw [completeHand_refused hplaying hseats h] at hkept
  cases hbusted : bustedSeats (stacksBySeat starting) (stacksBySeat final) with
  | nil =>
    have htakes : c.Takes starting final :=
      ⟨hplaying, hseats, by rw [hbusted]; exact fun _ he => (by cases he), fun hne => absurd hbusted hne⟩
    rw [completeHand_ok_iff.mpr htakes] at h
    cases h
  | cons e rest =>
    obtain ⟨seat, stack⟩ := e
    rw [hbusted] at hkept
    exact ⟨seat, stack, rest, rfl, fun hin => eliminate_removes hin hkept⟩

/-- A result is taken whole exactly when it is refused before the first write, or accepted with its chips all there. -/
theorem takes_whole_iff (c : TournamentController) (starting final : List (SeatId × Nat)) :
    c.TakesWhole starting final ↔ c.SafeResult starting final := by
  unfold SafeResult
  constructor
  · intro hwhole
    by_cases hplaying : c.Playing
    · by_cases hseats : ∀ q, q ∈ starting.map (·.1) ↔ q ∈ final.map (·.1)
      · refine Or.inr (Or.inr ?_)
        cases hresult : (c.completeHand starting final).1 with
        | error error => exact Or.inl (stranger_of_untouched hplaying hseats hresult (hwhole.refused error hresult))
        | ok u => exact Or.inr ⟨completeHand_ok_iff.mp hresult, hwhole.accepted hresult⟩
      · exact Or.inr (Or.inl hseats)
    · exact Or.inl hplaying
  · intro hsafe
    have hearly : ∀ (hbad : ¬ c.Playing ∨ ¬ ∀ q, q ∈ starting.map (·.1) ↔ q ∈ final.map (·.1)), c.TakesWhole starting final := by
      intro hbad
      refine ⟨?_, ?_⟩
      · intro error _
        rw [completeHand_refused_early hbad]
        exact .refl c
      · intro hok
        have htakes := completeHand_ok_iff.mp hok
        rcases hbad with hp | hs
        · exact absurd htakes.playing hp
        · exact absurd htakes.seats hs
    by_cases hbad : ¬ c.Playing ∨ ¬ ∀ q, q ∈ starting.map (·.1) ↔ q ∈ final.map (·.1)
    · exact hearly hbad
    obtain ⟨hplaying, hseats⟩ := not_or.mp hbad
    have hplaying : c.Playing := not_not.mp hplaying
    have hseats := not_not.mp hseats
    rcases hsafe with hp | hs | ⟨seat, stack, rest, hbusted, hstranger⟩ | ⟨htakes, hsum⟩
    · exact absurd hplaying hp
    · exact absurd hseats hs
    · refine ⟨?_, ?_⟩
      · intro error herror
        rw [completeHand_refused hplaying hseats herror, hbusted, eliminate_stranger hstranger]
        exact .refl c
      · intro hok
        have hin := (completeHand_ok_iff.mp hok).entrants (seat, stack) (by rw [hbusted]; exact List.mem_cons_self)
        exact absurd hin hstranger
    · refine ⟨?_, fun _ => hsum⟩
      intro error herror
      rw [completeHand_ok_iff.mpr htakes] at herror
      cases herror

/-- A hand of two entrants reported with a seat that nobody has. -/
def strangerLost : List (SeatId × Nat) × List (SeatId × Nat) := ([(0, 100), (1, 300), (5, 200)], [(0, 0), (1, 600), (5, 0)])

/-- A hand of two entrants reported with chips that nobody brought. -/
def chipsAdded : List (SeatId × Nat) × List (SeatId × Nat) := ([(0, 100), (1, 100)], [(0, 100), (1, 500)])

/-- The first of the two is refused with a player gone; the second is accepted. -/
theorem results_not_taken_whole : ∃ c, TournamentController.new twoLevels = .ok c ∧
    ¬ (c.play twoStart).TakesWhole strangerLost.1 strangerLost.2 ∧ ¬ (c.play twoStart).TakesWhole chipsAdded.1 chipsAdded.2 := by
  have hlost : (TournamentController.new twoLevels).toOption.map (fun c =>
      (((c.play twoStart).completeHand strangerLost.1 strangerLost.2).1,
        decide (((c.play twoStart).completeHand strangerLost.1 strangerLost.2).2.remaining = (c.play twoStart).remaining))) =
      some (.error .invalidHandResult, false) := by decide +kernel
  have hadded : (TournamentController.new twoLevels).toOption.map (fun c =>
      ((c.play twoStart).completeHand chipsAdded.1 chipsAdded.2).1) = some (.ok ()) := by decide +kernel
  cases hnew : TournamentController.new twoLevels with
  | error e =>
    rw [hnew] at hlost
    cases hlost
  | ok c =>
    rw [hnew] at hlost hadded
    obtain ⟨hrefused, hremaining⟩ := Prod.mk.inj (Option.some.inj hlost)
    refine ⟨c, rfl, ?_, ?_⟩
    · intro hwhole
      exact of_decide_eq_false hremaining (hwhole.refused _ hrefused).remaining
    · intro hwhole
      have hsum := hwhole.accepted (Option.some.inj hadded)
      exact absurd hsum (by decide)

end TournamentController

end OpenFelt
