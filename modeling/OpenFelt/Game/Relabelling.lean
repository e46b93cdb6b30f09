/-
  OpenFelt.Game.Relabelling — seat numbers do not matter.

  Two configurations seat the same players with the same chips, the second at the seats a
  permutation names, and the players come in the same order clockwise from the same button; the
  tables may differ in size and in the seats left empty. Proved: both are accepted or neither is,
  the dealt hands are relabelled copies of each other, and stay so through any run of calls, each
  answered alike. The renaming permutes all nine seat numbers; how it sends seats nobody holds is
  left open.
-/

import OpenFelt.Game.RelabelledPlay
import Mathlib.Logic.Equiv.Basic

namespace OpenFelt

variable {π : Equiv.Perm SeatId}

def ForcedPost.relabel (π : Equiv.Perm SeatId) (post : ForcedPost) : ForcedPost := { post with seat := π post.seat }

/-- `c'` seats the players of `c` elsewhere, in the same order clockwise from the same button. -/
structure RelabelledConfig (π : Equiv.Perm SeatId) (c c' : HandConfig) : Prop where
  button : c'.button = π c.button
  seatStacks : c'.seatStacks.Perm (c.seatStacks.map fun entry => (π entry.1, entry.2))
  inside : ∀ entry ∈ c.seatStacks, c'.tableSize.contains (π entry.1) = c.tableSize.contains entry.1
  order : ∀ e ∈ c.seatStacks, ∀ e' ∈ c.seatStacks,
    (clockwiseAwardKey c.tableSize c.button e.1 ≤ clockwiseAwardKey c.tableSize c.button e'.1 ↔
      clockwiseAwardKey c'.tableSize (π c.button) (π e.1) ≤ clockwiseAwardKey c'.tableSize (π c.button) (π e'.1))
  forcedPosts : c'.forcedPosts = c.forcedPosts.map (·.relabel π)
  blindValues : c'.blindValues = c.blindValues
  deck : c'.deck = c.deck

namespace Relabelled

open MultiwayHand

variable {h h' : MultiwayHand}

/-! ### Cards and posts -/

theorem dealHoleCards (hr : Relabelled π h h') (seats : List SeatId) :
    Relabelled π (dealHoleCards seats h) (dealHoleCards (seats.map π) h') := by
  induction seats generalizing h h' with
  | nil => exact hr
  | cons p seats ih =>
    rw [List.map_cons, MultiwayHand.dealHoleCards, MultiwayHand.dealHoleCards, hr.deck]
    rcases h.deck.deal with ⟨card, deck⟩
    cases card with
    | none => exact ih (hr.check _)
    | some card =>
      have hdealt : Relabelled π { h with deck := deck } { h' with deck := deck } := { hr with deck := rfl }
      exact ih (hdealt.updateSeat p _)

theorem postBlinds (hr : Relabelled π h h') : Relabelled π h.postBlinds h'.postBlinds := by
  unfold MultiwayHand.postBlinds
  rw [hr.smallBlind, hr.bigBlind, hr.blindValues]
  exact (hr.commitChips _ _).commitChips _ _

theorem postForced (hr : Relabelled π h h') {posts : List ForcedPost} {table : MultiwayHand}
    (hp : postForced posts h = .ok table) :
    ∃ table', postForced (posts.map (·.relabel π)) h' = .ok table' ∧ Relabelled π table table' := by
  induction posts generalizing h h' with
  | nil =>
    obtain rfl := Except.ok.inj hp
    exact ⟨h', rfl, hr⟩
  | cons post posts ih =>
    have hany : (h'.occupiedSeats.any (· == (post.relabel π).seat)) = h.occupiedSeats.any (· == post.seat) :=
      hr.any_seat fun q => by
        rw [show (post.relabel π).seat = π post.seat from rfl, Bool.eq_iff_iff, beq_iff_eq, beq_iff_eq, π.injective.eq_iff]
    rw [MultiwayHand.postForced] at hp
    rw [List.map_cons, MultiwayHand.postForced, hany]
    split at hp
    · cases hp
    · rename_i hseated
      rw [if_neg hseated, show (post.relabel π).live = post.live from rfl]
      split at hp
      · rename_i hlive
        rw [if_pos hlive]
        exact ih (hr.commitChips post.seat post.amount) hp
      · rename_i hdead
        rw [if_neg hdead]
        exact ih (hr.commitDeadChips post.seat post.amount) hp

theorem setOpening (hr : Relabelled π h h') (wager : Nat) :
    Relabelled π { h with currentWager := wager } { h' with currentWager := wager } := { hr with currentWager := rfl }

theorem setPaced (hr : Relabelled π h h') (paced : Bool) :
    Relabelled π { h with pacedShowdown := paced } { h' with pacedShowdown := paced } := { hr with pacedShowdown := rfl }

theorem openPreflop (hr : Relabelled π h h') {first : SeatId} (hf : occupiedIn h.seats first = true) :
    Relabelled π (h.openPreflop first) (h'.openPreflop (π first)) := by
  have hwager : (h'.occupiedSeats.map fun p => (h'.seat p).streetContribution).foldl max 0 =
      (h.occupiedSeats.map fun p => (h.seat p).streetContribution).foldl max 0 :=
    (hr.map_occupied (·.streetContribution)).foldl_eq' (fun a _ b _ n => Nat.max_right_comm n a b) 0
  unfold MultiwayHand.openPreflop
  dsimp only
  rw [hwager]
  have hopened := hr.setOpening ((h.occupiedSeats.map fun p => (h.seat p).streetContribution).foldl max 0)
  rw [hopened.firstNeedingFrom hf]
  exact ((hopened.setToAct _).advanceAutomaticallyIfNeeded).setPaced false

end Relabelled

/-! ## The configuration -/

section built
variable {c c' : HandConfig} {h : MultiwayHand} {seats seats' : List (Option MultiwaySeatState)} {chips chips' : Nat}
  {smallBlind bigBlind first : SeatId} {table : MultiwayHand}

open MultiwayHand

theorem dealHoleCards_seats (h : MultiwayHand) (l : List SeatId) : SameSeats h (dealHoleCards l h) := by
  induction l generalizing h with
  | nil => exact ⟨rfl, rfl, fun _ => rfl⟩
  | cons p l ih =>
    rw [MultiwayHand.dealHoleCards]
    rcases h.deck.deal with ⟨card, deck⟩
    cases card with
    | none => exact (check_table h false).same.trans (ih _)
    | some card =>
      have hdealt : SameSeats h { h with deck := deck } := ⟨rfl, rfl, fun _ => rfl⟩
      exact (hdealt.trans (updateSeat_table _ p _).same).trans (ih _)

theorem postAntes_seats (h : MultiwayHand) : SameSeats h h.postAntes := by
  unfold MultiwayHand.postAntes
  split
  · exact SameSeats.foldl (fun k p => (commitDeadChips_table k p _).same) _ h
  · exact ⟨rfl, rfl, fun _ => rfl⟩

theorem postForced_seats {posts : List ForcedPost} (hp : postForced posts h = .ok table) : SameSeats h table := by
  induction posts generalizing h with
  | nil =>
    obtain rfl := Except.ok.inj hp
    exact ⟨rfl, rfl, fun _ => rfl⟩
  | cons post posts ih =>
    rw [MultiwayHand.postForced] at hp
    split at hp
    · cases hp
    split at hp
    · exact (commitChips_table h post.seat post.amount).same.trans (ih hp)
    · exact (commitDeadChips_table h post.seat post.amount).same.trans (ih hp)

namespace MultiwayHand.Built

/-- The player who opens has a seat. -/
theorem first_occupied (hb : Built c seats chips smallBlind bigBlind first table h) : occupiedIn table.seats first = true := by
  have hs : Seating c.tableSize c.seatStacks seats chips := placeStacks_seating (seating_empty _) hb.placed
  obtain ⟨_, _, _, hpositions, _, _, hfirst⟩ := openingPositions_some hs.length hb.button c.seatStacks.length
  rw [hb.positions, Option.some.injEq, Prod.mk.injEq, Prod.mk.injEq] at hpositions
  obtain ⟨rfl, rfl, rfl⟩ := hpositions
  have hdealt : SameSeats (MultiwayHand.seated c.tableSize seats c.button smallBlind bigBlind c.blindValues chips c.deck)
      (c.dealtTo seats chips smallBlind bigBlind) := (dealHoleCards_seats _ _).trans (dealHoleCards_seats _ _)
  have hante := postAntes_seats (c.dealtTo seats chips smallBlind bigBlind)
  have hblinds : SameSeats (c.dealtTo seats chips smallBlind bigBlind).postAntes
      (c.dealtTo seats chips smallBlind bigBlind).postAntes.postBlinds :=
    (commitChips_table _ _ _).same.trans (commitChips_table _ _ _).same
  rw [(((hdealt.trans hante).trans hblinds).trans (postForced_seats hb.posts)).occupied]
  exact hfirst

/-- The steps of `with_prepared_deck`, each having passed, are the hand it builds. -/
theorem build (hb : Built c seats chips smallBlind bigBlind first table h) : c.build = .ok h := by
  have hcount : ¬ c.seatStacks.length < 2 := Nat.not_lt.mpr hb.count
  have hposts := hb.posts
  unfold HandConfig.dealtTo at hposts
  simp only [HandConfig.build, withPreparedDeck, hb.blinds, hb.placed, hb.button, hb.positions, Bool.not_true, Bool.false_eq_true,
    if_false, hcount, Option.getD_some, Option.isSome_some, check_true, hposts, hb.opened]

end MultiwayHand.Built

namespace RelabelledConfig

theorem entry (hc : RelabelledConfig π c c') : ∀ e ∈ c'.seatStacks, ∃ e₀ ∈ c.seatStacks, e = (π e₀.1, e₀.2) := by
  intro e he
  obtain ⟨e₀, he₀, rfl⟩ := List.mem_map.mp (hc.seatStacks.subset he)
  exact ⟨e₀, he₀, rfl⟩

/-- The relation reads both ways. -/
theorem symm (hc : RelabelledConfig π c c') : RelabelledConfig π.symm c' c := by
  have hbutton : c.button = π.symm c'.button := by rw [hc.button, Equiv.symm_apply_apply]
  refine ⟨hbutton, ?_, ?_, ?_, ?_, hc.blindValues.symm, hc.deck.symm⟩
  · have hall := hc.seatStacks.map fun entry => (π.symm entry.1, entry.2)
    rw [List.map_map] at hall
    have hid : ((fun entry : SeatId × Nat => (π.symm entry.1, entry.2)) ∘ fun entry => (π entry.1, entry.2)) = id :=
      funext fun entry => by rw [Function.comp_apply, Equiv.symm_apply_apply]; rfl
    rw [hid, List.map_id] at hall
    exact hall.symm
  · intro e he
    obtain ⟨e₀, he₀, rfl⟩ := hc.entry e he
    rw [Equiv.symm_apply_apply]
    exact (hc.inside e₀ he₀).symm
  · intro a ha b hb
    obtain ⟨a₀, ha₀, rfl⟩ := hc.entry a ha
    obtain ⟨b₀, hb₀, rfl⟩ := hc.entry b hb
    rw [← hbutton, Equiv.symm_apply_apply, Equiv.symm_apply_apply, hc.button]
    exact (hc.order a₀ ha₀ b₀ hb₀).symm
  · have hid : ((fun post : ForcedPost => post.relabel π.symm) ∘ fun post => post.relabel π) = id :=
      funext fun post => by simp [ForcedPost.relabel]
    rw [hc.forcedPosts, List.map_map, hid, List.map_id]

theorem keys (hc : RelabelledConfig π c c') : (c'.seatStacks.map (·.1)).Perm ((c.seatStacks.map (·.1)).map π) := by
  have hall := hc.seatStacks.map (·.1)
  rw [List.map_map] at hall ⊢
  exact hall

/-- The players sit at their new seats with their chips. -/
theorem lookup (hc : RelabelledConfig π c c') (hn : (c.seatStacks.map (·.1)).Nodup) (p : SeatId) :
    c'.seatStacks.lookup (π p) = c.seatStacks.lookup p := by
  have hn' : (c'.seatStacks.map (·.1)).Nodup := hc.keys.nodup_iff.mpr (hn.map π.injective)
  refine Option.ext fun n => ?_
  rw [OrdMap.mem_lookup hn', OrdMap.mem_lookup hn, hc.seatStacks.mem_iff, List.mem_map]
  constructor
  · rintro ⟨⟨q, m⟩, hm, he⟩
    obtain ⟨hq, rfl⟩ := Prod.ext_iff.mp he
    rwa [← π.injective hq]
  · exact fun hm => ⟨(p, n), hm, rfl⟩

theorem seat (hc : RelabelledConfig π c c') (hs : Seating c.tableSize c.seatStacks seats chips)
    (hs' : Seating c'.tableSize c'.seatStacks seats' chips') (p : SeatId) : seatIn seats' (π p) = seatIn seats p := by
  rw [hs'.seat, hs.seat, hc.lookup hs.nodup]

theorem totalChips (hc : RelabelledConfig π c c') : (c'.seatStacks.map (·.2)).sum = (c.seatStacks.map (·.2)).sum := by
  have hall := hc.seatStacks.map (·.2)
  rw [List.map_map] at hall
  exact hall.sum_eq

/-- The seated players stand in one ring. -/
theorem ring (hc : RelabelledConfig π c c') (hs : Seating c.tableSize c.seatStacks seats chips)
    (hs' : Seating c'.tableSize c'.seatStacks seats' chips') (hbutton : occupiedIn seats c.button = true) :
    SameRing π c.tableSize c'.tableSize c.button (occupiedIn seats) (occupiedIn seats') := by
  have hsame : ∀ p, occupiedIn seats' (π p) = occupiedIn seats p := fun p => congrArg Option.isSome (hc.seat hs hs' p)
  have hentry : ∀ p, occupiedIn seats p = true → ∃ e ∈ c.seatStacks, e.1 = p := by
    intro p hp
    rw [occupiedIn, hs.seat, Option.isSome_map, List.lookup_isSome_iff] at hp
    obtain ⟨e, he, hkey⟩ := hp
    exact ⟨e, he, (beq_iff_eq.mp hkey).symm⟩
  refine ⟨hsame, fun p hp => hs.length ▸ lt_of_occupiedIn hp, fun p hp => ?_, hbutton, fun p q hp hq => ?_⟩
  · exact hs'.length ▸ lt_of_occupiedIn ((hsame p).trans hp)
  · obtain ⟨e, he, rfl⟩ := hentry p hp
    obtain ⟨e', he', rfl⟩ := hentry q hq
    exact hc.order e he e' he'

/-- The stacks are placed at the other table too. -/
theorem placed (hc : RelabelledConfig π c c') (hs : Seating c.tableSize c.seatStacks seats chips) : ∃ seats',
    placeStacks c'.tableSize c'.seatStacks (List.replicate c'.tableSize.get none) 0 = .ok (seats', chips) ∧
      Seating c'.tableSize c'.seatStacks seats' chips := by
  have hnodup : (([] ++ c'.seatStacks : List (SeatId × Nat)).map (·.1)).Nodup := hc.keys.nodup_iff.mpr (hs.nodup.map π.injective)
  have hinside : ∀ e ∈ c'.seatStacks, e.1.val < c'.tableSize.get := by
    intro e he
    obtain ⟨e₀, he₀, rfl⟩ := hc.entry e he
    have hocc : occupiedIn seats e₀.1 = true := by
      rw [occupiedIn, hs.seat, Option.isSome_map, List.lookup_isSome_iff]
      exact ⟨e₀, he₀, beq_self_eq_true _⟩
    have hin : c.tableSize.contains e₀.1 = true := by
      rw [TableSize.contains, decide_eq_true_eq, ← hs.length]
      exact lt_of_occupiedIn hocc
    rw [← hc.inside e₀ he₀, TableSize.contains, decide_eq_true_eq] at hin
    exact hin
  have hpositive : ∀ e ∈ c'.seatStacks, 0 < e.2 := by
    intro e he
    obtain ⟨e₀, he₀, rfl⟩ := hc.entry e he
    exact hs.positive e₀ he₀
  have hfits : 0 + (c'.seatStacks.map (·.2)).sum ≤ u32Max := by
    rw [Nat.zero_add, hc.totalChips, ← hs.sum]
    exact hs.fits
  obtain ⟨seats', chips', hplaced⟩ := placeStacks_ok (seating_empty _) hnodup hinside hpositive hfits
  have hs' : Seating c'.tableSize c'.seatStacks seats' chips' := placeStacks_seating (seating_empty _) hplaced
  obtain rfl : chips' = chips := by rw [hs'.sum, hs.sum, hc.totalChips]
  exact ⟨seats', hplaced, hs'⟩

end RelabelledConfig

/-- Blinds and opener are found at the same players. -/
theorem SameRing.openingPositions {size size' : TableSize} {button : SeatId}
    (hr : SameRing π size size' button (occupiedIn seats) (occupiedIn seats')) (players : Nat) :
    openingPositions size' seats' (π button) players =
      (openingPositions size seats button players).map fun at_ => (π at_.1, π at_.2.1, π at_.2.2) := by
  have hnext : ∀ p, occupiedIn seats p = true → nextOccupied size' seats' (π p) = (nextOccupied size seats p).map π :=
    fun p hp => hr.find hp (fun _ h => h) hr.same
  have hfound : ∀ {p q}, occupiedIn seats p = true → nextOccupied size seats p = some q → occupiedIn seats q = true :=
    fun hp hq => (find_clockwise (hr.inside _ hp) hq).2.1
  unfold MultiwayHand.openingPositions
  split
  · rw [hnext _ hr.held]
    cases nextOccupied size seats button <;> rfl
  · rw [hnext _ hr.held]
    cases hsmall : nextOccupied size seats button with
    | none => rfl
    | some smallBlind =>
      have hs := hfound hr.held hsmall
      simp only [Option.map_some, Option.bind_eq_bind, Option.bind_some, hnext _ hs]
      cases hbig : nextOccupied size seats smallBlind with
      | none => rfl
      | some bigBlind =>
        simp only [Option.map_some, Option.bind_some, hnext _ (hfound hs hbig)]
        cases nextOccupied size seats bigBlind <;> rfl

/-- The players seated, before a card or a chip moves. -/
theorem RelabelledConfig.seated (hc : RelabelledConfig π c c') (hs : Seating c.tableSize c.seatStacks seats chips)
    (hs' : Seating c'.tableSize c'.seatStacks seats' chips) (hbutton : occupiedIn seats c.button = true) :
    Relabelled π (seated c.tableSize seats c.button smallBlind bigBlind c.blindValues chips c.deck)
      (seated c'.tableSize seats' c'.button (π smallBlind) (π bigBlind) c'.blindValues chips c'.deck) where
  ring := hc.ring hs hs' hbutton
  seat p := congrArg (·.getD .vacant) (hc.seat hs hs' p)
  phase := rfl
  board := rfl
  button := hc.button
  smallBlind := rfl
  bigBlind := rfl
  blindValues := hc.blindValues
  toAct := rfl
  currentWager := rfl
  lastFullRaiseSize := congrArg (·.bigBlind) hc.blindValues
  actionHistory := rfl
  pots := .nil
  potsSeated _ hpot := absurd hpot List.not_mem_nil
  returnedExcess := rfl
  awards := .nil
  revealedHands := rfl
  settledContributions := .nil
  showdownProgress := rfl
  muckedHands := rfl
  alwaysShow := rfl
  pacedShowdown := rfl
  evaluated := rfl
  evaluationOf _ := rfl
  initialTotal := rfl
  deck := hc.deck
  panicked := rfl

/-- A configuration accepted is accepted at the other seats, and deals the same hand there. -/
theorem RelabelledConfig.build (hc : RelabelledConfig π c c') (hb : c.build = .ok h) :
    ∃ h', c'.build = .ok h' ∧ Relabelled π h h' := by
  obtain ⟨seats, chips, smallBlind, bigBlind, first, table, hbuilt⟩ := build_built hb
  have hs : Seating c.tableSize c.seatStacks seats chips := placeStacks_seating (seating_empty _) hbuilt.placed
  obtain ⟨seats', hplaced, hs'⟩ := hc.placed hs
  have hring := hc.ring hs hs' hbuilt.button
  have hlength : c'.seatStacks.length = c.seatStacks.length := by rw [hc.seatStacks.length_eq, List.length_map]
  have hpositions := hring.openingPositions c.seatStacks.length
  rw [hbuilt.positions, Option.map_some, ← hc.button, ← hlength] at hpositions
  have hbutton : occupiedIn seats' c'.button = true := by rw [hc.button, hring.same]; exact hbuilt.button
  have hdealt : Relabelled π (c.dealtTo seats chips smallBlind bigBlind)
      (c'.dealtTo seats' chips (π smallBlind) (π bigBlind)) := by
    have hround : clockwiseOccupied c'.tableSize seats' c'.button = (clockwiseOccupied c.tableSize seats c.button).map π := by
      rw [hc.button]
      exact hring.clockwise hbuilt.button
    unfold HandConfig.dealtTo
    dsimp only
    rw [hround]
    exact ((hc.seated hs hs' hbuilt.button).dealHoleCards _).dealHoleCards _
  obtain ⟨table', hposts, htable⟩ := hdealt.postAntes.postBlinds.postForced hbuilt.posts
  rw [← hc.forcedPosts] at hposts
  have hbuilt' : Built c' seats' chips (π smallBlind) (π bigBlind) (π first) table' (table'.openPreflop (π first)) :=
    ⟨by rw [hc.blindValues]; exact hbuilt.blinds, by rw [hlength]; exact hbuilt.count, hplaced, hbutton, hpositions, hposts, rfl⟩
  refine ⟨_, hbuilt'.build, ?_⟩
  rw [hbuilt.opened]
  exact htable.openPreflop hbuilt.first_occupied

/-! ## A whole hand -/

/-- Two hands after the same calls: they correspond, and answer the next call alike. -/
structure PlayedAlike (π : Equiv.Perm SeatId) (ops : List HandOp) (h h' : MultiwayHand) : Prop where
  hand : Relabelled π (h.run ops) (h'.run (ops.map (·.relabel π)))
  showOrder : (h'.run (ops.map (·.relabel π))).showOrder = (h.run ops).showOrder.map π
  legal : ∀ p, (h'.run (ops.map (·.relabel π))).legalActionsFor (π p) = (h.run ops).legalActionsFor p
  command : ∀ command : SeatCommand, ((h'.run (ops.map (·.relabel π))).applyCommand (command.relabel π)).1 =
    ((h.run ops).applyCommand command).1.mapError (·.relabel π)
  alwaysShow : ∀ p value, ((h'.run (ops.map (·.relabel π))).setAlwaysShow (π p) value).1 =
    ((h.run ops).setAlwaysShow p value).1.mapError (·.relabel π)
  advance : (h'.run (ops.map (·.relabel π))).advanceShowdown.1 = (h.run ops).advanceShowdown.1

theorem Relabelled.played {h h' : MultiwayHand} (hr : Relabelled π h h') (ops : List HandOp) : PlayedAlike π ops h h' where
  hand := hr.run ops
  showOrder := (hr.run ops).showOrder
  legal := (hr.run ops).legalActionsFor
  command command := ((hr.run ops).applyCommand command).1
  alwaysShow p value := ((hr.run ops).setAlwaysShow p value).1
  advance := (hr.run ops).advanceShowdown.1

/-- Players moved to other seats in the same order round the button are dealt the same hand
    and play it alike, paced or not, whatever is called. -/
theorem plays_alike (hc : RelabelledConfig π c c') (paced : Bool) :
    c'.build.isOk = c.build.isOk ∧
      ∀ start, c.build = .ok start → ∃ start', c'.build = .ok start' ∧ Relabelled π start start' ∧
        ∀ ops, PlayedAlike π ops { start with pacedShowdown := paced } { start' with pacedShowdown := paced } := by
  refine ⟨?_, fun start hb => ?_⟩
  · rw [Bool.eq_iff_iff]
    constructor
    · intro hok
      cases hb : c'.build with
      | error e => rw [hb] at hok; cases hok
      | ok start' =>
        obtain ⟨start, hstart, _⟩ := hc.symm.build hb
        rw [hstart]
        rfl
    · intro hok
      cases hb : c.build with
      | error e => rw [hb] at hok; cases hok
      | ok start =>
        obtain ⟨start', hstart', _⟩ := hc.build hb
        rw [hstart']
        rfl
  · obtain ⟨start', hb', hr⟩ := hc.build hb
    exact ⟨start', hb', hr, fun ops => (hr.setPaced paced).played ops⟩

/-- `threeHanded` at a full table, its players at seats 7, 1 and 4. -/
def threeHandedMoved : HandConfig where
  tableSize := .nine
  button := 7
  seatStacks := [(1, 60), (4, 7), (7, 100)]
  forcedPosts := [⟨7, 1, false⟩, ⟨7, 2, true⟩]
  blindValues := ⟨1, 2, 1⟩
  deck := .new

def threeHandedSeats : Equiv.Perm SeatId := (Equiv.swap 0 7).trans ((Equiv.swap 2 1).trans (Equiv.swap 5 4))

theorem threeHanded_moved : RelabelledConfig threeHandedSeats threeHanded threeHandedMoved where
  button := by decide
  seatStacks := by decide
  inside := by decide
  order := by decide
  forcedPosts := by decide
  blindValues := rfl
  deck := rfl

theorem plays_alike_moved : ∃ start start', threeHanded.build = .ok start ∧ threeHandedMoved.build = .ok start' ∧
    PlayedAlike threeHandedSeats threeHandedToShowdown { start with pacedShowdown := false }
      { start' with pacedShowdown := false } := by
  obtain ⟨_, ⟨_, start, _, hb, _⟩, _⟩ := threeHanded_starts
  obtain ⟨start', hb', _, halike⟩ := (plays_alike threeHanded_moved false).2 start hb
  exact ⟨start, start', hb, hb', halike threeHandedToShowdown⟩

end built

end OpenFelt
