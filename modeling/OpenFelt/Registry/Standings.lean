/-
  OpenFelt.Registry.Standings — a freezeout's standings rank its field
  (`src/tournament.rs`).

  Proved (`play_ranks`), of a plan whose shares add up to the whole: at every hand the
  places run from the last entrant's up without a gap, who busts in one hand is placed by
  stack and then by seat, and a finished tournament has ranked everybody and paid out its
  pool, no place more than a better one where the shares do not grow, and paying out does
  not panic. The shares of an accepted plan may add up only after wrapping
  (`wrapped_shares_overpay`).
-/

import OpenFelt.Lib.Apportion
import OpenFelt.Lib.Ledger
import OpenFelt.Registry.Field

namespace OpenFelt

namespace TournamentController

variable {c c' : TournamentController} {config : TournamentConfig} {starting final : List (SeatId × Nat)}

/-! ## Payouts -/

/-- A plan whose shares make up the whole, without wrapping. -/
structure Whole (plan : TournamentPayoutPlan) : Prop where
  shares : plan.sharesBps.sum = payoutBasisPoints
  pool : plan.pool ≤ 1000000

/-- Nothing wraps: the awards are those of a split by largest fractions. -/
theorem Whole.awardsOf_eq {plan : TournamentPayoutPlan} (hw : Whole plan) :
    awardsOf plan = Apportion.apportion plan.pool payoutBasisPoints plan.sharesBps := by
  have hquotas : wholeShares plan = Apportion.quotas plan.pool payoutBasisPoints plan.sharesBps := rfl
  obtain ⟨hsum, _⟩ := @Apportion.leftOver_spec plan.pool _ _ (by decide) hw.shares
  have hpool := hw.pool
  unfold awardsOf Apportion.apportion
  rw [hquotas]
  dsimp only
  have hleft : (plan.pool + 2 ^ 32 -
      ((Apportion.quotas plan.pool payoutBasisPoints plan.sharesBps).map fun award => award.2.1).sum % 2 ^ 32) % 2 ^ 32 =
        Apportion.leftOver plan.pool payoutBasisPoints plan.sharesBps := by omega
  rw [hleft]
  refine List.map_congr_left fun q hq => ?_
  -- a whole share is no more than the pool
  have hmem : q.1.2.1 ∈ (Apportion.quotas plan.pool payoutBasisPoints plan.sharesBps).map fun award => award.2.1 := by
    have hranked := (List.mem_insertionSort _).mp (List.fst_mem_of_mem_zipIdx hq)
    exact List.mem_map_of_mem (f := fun award : Nat × Nat × Nat => award.2.1) hranked
  have hle := List.le_sum_of_mem hmem
  have hfits : (q.1.2.1 + 1) % 2 ^ 32 = q.1.2.1 + 1 := Nat.mod_eq_of_lt (by omega)
  unfold Apportion.topUp
  rw [hfits]
  split <;> rfl

/-- No whole share is past `u32`. -/
theorem Whole.fits {plan : TournamentPayoutPlan} (hw : Whole plan) : payoutPanics plan = false := by
  rw [payoutPanics, List.any_eq_false]
  intro award haward hpast
  have hlarge := of_decide_eq_true hpast
  obtain ⟨hsum, _⟩ := @Apportion.leftOver_spec plan.pool _ _ (by decide) hw.shares
  have hmem : award.2.1 ∈ (Apportion.quotas plan.pool payoutBasisPoints plan.sharesBps).map fun award => award.2.1 :=
    List.mem_map_of_mem (f := fun award : Nat × Nat × Nat => award.2.1) haward
  have hle := List.le_sum_of_mem hmem
  have hpool := hw.pool
  unfold u32Max at hlarge
  omega

/-- Each paid place with its award. -/
def awarded (plan : TournamentPayoutPlan) : List (Nat × Nat) :=
  (Apportion.apportion plan.pool payoutBasisPoints plan.sharesBps).map fun q => (q.1, q.2.1)

theorem awarded_places (plan : TournamentPayoutPlan) :
    ((awarded plan).map (·.1)).Perm (List.range' 1 plan.sharesBps.length) := by
  rw [awarded, List.map_map]
  exact Apportion.places_apportion _ _ _

theorem nodup_awarded (plan : TournamentPayoutPlan) : ((awarded plan).map (·.1)).Nodup :=
  (awarded_places plan).nodup_iff.mpr List.nodup_range'

/-- A payout is what the place is credited. -/
theorem payoutAt_eq {plan : TournamentPayoutPlan} (hw : Whole plan) (place : Nat) :
    payoutAt plan place = Ledger.credited (awarded plan) place := by
  have hlookup : ∀ awards : List (Nat × Nat × Nat),
      (awards.findSome? fun award => if award.1 = place then some award.2.1 else none) =
        (awards.map fun q => (q.1, q.2.1)).lookup place := by
    intro awards
    induction awards with
    | nil => rfl
    | cons award rest ih =>
      rw [List.findSome?_cons, List.map_cons, List.lookup_cons]
      by_cases hplace : award.1 = place
      · simp [hplace]
      · have hne : (place == award.1) = false := by simpa using Ne.symm hplace
        simp [hplace, hne, ih]
  rw [Ledger.credited_eq_lookup (nodup_awarded plan), payoutAt, hw.awardsOf_eq, hlookup]
  rfl

/-- Over all places the payouts come to the pool. -/
theorem Whole.sum_payouts {plan : TournamentPayoutPlan} (hw : Whole plan) {n : Nat} (hn : plan.sharesBps.length ≤ n) :
    ((List.range' 1 n).map (payoutAt plan)).sum = plan.pool := by
  rw [List.map_congr_left fun place _ => payoutAt_eq hw place, Ledger.sum_credited List.nodup_range', awarded, List.map_map]
  · exact Apportion.sum_apportion (by decide) hw.shares
  · intro e he
    have hplace := (awarded_places plan).mem_iff.mp (List.mem_map_of_mem he)
    rw [List.mem_range'_1] at hplace ⊢
    omega

/-- A better place gets no less, where the shares do not grow. -/
theorem Whole.payoutAt_mono {plan : TournamentPayoutPlan} (hw : Whole plan) (hshares : plan.sharesBps.Pairwise (· ≥ ·))
    {place place' : Nat} (hpos : 0 < place) (hle : place ≤ place') : payoutAt plan place' ≤ payoutAt plan place := by
  rw [payoutAt_eq hw, payoutAt_eq hw]
  by_cases hpaid : place' ≤ plan.sharesBps.length
  · have haward : ∀ p, 0 < p → p ≤ plan.sharesBps.length →
        ∃ q ∈ Apportion.apportion plan.pool payoutBasisPoints plan.sharesBps, q.1 = p ∧
          Ledger.credited (awarded plan) p = q.2.1 := by
      intro p hp hp'
      have hmem : p ∈ (awarded plan).map (·.1) := by
        rw [(awarded_places plan).mem_iff, List.mem_range'_1]
        omega
      obtain ⟨e, he, rfl⟩ := List.mem_map.mp hmem
      have hcredited := Ledger.credited_of_mem (nodup_awarded plan) he
      obtain ⟨q, hq, rfl⟩ := List.mem_map.mp he
      exact ⟨q, hq, rfl, hcredited⟩
    obtain ⟨x, hx, hxplace, hxpaid⟩ := haward place hpos (by omega)
    obtain ⟨y, hy, hyplace, hypaid⟩ := haward place' (by omega) hpaid
    rw [hxpaid, hypaid]
    exact Apportion.apportion_mono hshares hx hy (by omega)
  · have hnone : (awarded plan).lookup place' = none := by
      refine List.lookup_eq_none_iff.mpr fun e he => ?_
      have hplace := (awarded_places plan).mem_iff.mp (List.mem_map_of_mem he)
      rw [List.mem_range'_1] at hplace
      simp only [bne_iff_ne]
      omega
    rw [Ledger.credited_eq_lookup (nodup_awarded plan), hnone]
    exact Nat.zero_le _

/-! ## The ranking -/

theorem descending {n k : Nat} (hk : k ≤ n) : ((List.range k).map (n - ·)).Perm (List.range' (n + 1 - k) k) := by
  induction k with
  | zero => exact .refl _
  | succ k ih =>
    have hfirst : n + 1 - (k + 1) = n - k := by omega
    have hnext : n - k + 1 = n + 1 - k := by omega
    rw [List.range_succ, List.map_append, hfirst, List.range'_succ, hnext]
    exact List.perm_append_comm.trans ((ih (by omega)).cons _)

/-- The standings rank the field: places without a gap, and once it is over everybody's,
    with the whole pool paid out. -/
structure Ranked (c : TournamentController) : Prop where
  places : c.Playing →
    (c.standings.map (·.place)).Perm (List.range' (c.remaining.size + 1) (c.config.entrants - c.remaining.size))
  once : (c.standings.map (·.player)).Nodup
  seated : ∀ x ∈ c.standings, c.entrants.find? x.player = some x.seat
  complete : c.status = .complete → (c.standings.map (·.place)).Perm (List.range' 1 c.config.entrants) ∧
    ∀ p, c.entrants.contains p = true → p ∈ c.standings.map (·.player)
  pool : c.status = .complete → (c.standings.map (·.payout)).sum = c.config.payout.pool
  fits : payoutPanics c.config.payout = false
  order : c.status = .complete → c.config.payout.sharesBps.Pairwise (· ≥ ·) →
    ∀ x ∈ c.standings, ∀ y ∈ c.standings, x.place ≤ y.place → y.payout ≤ x.payout

theorem Fielded.whole (hf : Fielded config c) (hshares : config.payout.sharesBps.sum = payoutBasisPoints) :
    Whole config.payout := by
  obtain ⟨_, _, _, _, hpool, _⟩ := validate_ok hf.valid
  exact ⟨hshares, hpool⟩

theorem Fielded.ranked (hf : Fielded config c) (hshares : config.payout.sharesBps.sum = payoutBasisPoints) : Ranked c := by
  have hwhole := hf.whole hshares
  obtain ⟨_, _, _, _, _, hlength⟩ := validate_ok hf.valid
  have hentrants : c.config.entrants = config.entrants := by rw [hf.configured]
  have hpayout : c.config.payout = config.payout := by rw [hf.configured]
  have hover : c.status = .complete → c.standings.length = config.entrants := by
    intro hcomplete
    have hcount := hf.count
    rw [if_pos hcomplete, hf.full (Or.inr hcomplete)] at hcount
    exact hcount
  have hall : c.status = .complete → (c.standings.map (·.place)).Perm (List.range' 1 config.entrants) := by
    intro hcomplete
    have hperm := descending (le_refl config.entrants)
    rw [hf.placed, hover hcomplete]
    rwa [Nat.add_sub_cancel_left] at hperm
  have hpaid : c.status = .complete → c.standings.map (·.payout) = (c.standings.map (·.place)).map (payoutAt config.payout) := by
    intro hcomplete
    rw [List.map_map]
    exact List.map_congr_left fun x hx => hf.paid hcomplete x hx
  refine ⟨fun hp => ?_, hf.once, hf.seated, fun hcomplete => ⟨hentrants ▸ hall hcomplete, fun p hp => ?_⟩, fun hcomplete => ?_,
    hpayout ▸ hwhole.fits, fun hcomplete hmono x hx y hy hle => ?_⟩
  · have hcount := hf.count
    rw [if_neg (Fielded.open_of_playing hp), hf.full (Or.inl hp)] at hcount
    have hperm := descending (n := config.entrants) (k := c.standings.length) (by omega)
    have hfirst : config.entrants + 1 - c.standings.length = c.remaining.size + 1 := by omega
    have hrest : config.entrants - c.remaining.size = c.standings.length := by omega
    rw [hf.placed, hentrants, hrest, ← hfirst]
    exact hperm
  · -- as many distinct entrants are placed as there are
    have hsub : c.standings.map (·.player) ⊆ c.entrants.keys := by
      intro q hq
      obtain ⟨x, hx, rfl⟩ := List.mem_map.mp hq
      exact OrdMap.mem_keys.mpr ⟨_, hf.seated x hx⟩
    have hcount : c.entrants.keys.length ≤ (c.standings.map (·.player)).length := by
      rw [← OrdMap.size_eq_keys, hf.full (Or.inr hcomplete), List.length_map, hover hcomplete]
    have hperm := (List.subperm_of_subset hf.once hsub).perm_of_length_le hcount
    exact hperm.mem_iff.mpr (OrdMap.mem_keys.mpr (OrdMap.contains_iff.mp hp))
  · rw [hpaid hcomplete, ((hall hcomplete).map _).sum_eq, hpayout]
    exact hwhole.sum_payouts hlength
  · have hplace : x.place ∈ List.range' 1 config.entrants := (hall hcomplete).mem_iff.mp (List.mem_map_of_mem hx)
    rw [List.mem_range'_1] at hplace
    rw [hf.paid hcomplete x hx, hf.paid hcomplete y hy]
    exact hwhole.payoutAt_mono (hpayout ▸ hmono) (by omega) hle

/-- One hand's part of the ranking: who loses everything gets the next places up, the
    shorter stack and of equal ones the lower seat the worse. -/
structure HandRanked (c : TournamentController) (starting final : List (SeatId × Nat)) : Prop where
  accepted : (c.completeHand starting final).1 = .ok ()
  kept : c.standings.map (fun x => (x.player, x.place)) <+:
    (c.completeHand starting final).2.standings.map fun x => (x.player, x.place)
  left : 0 < (c.completeHand starting final).2.remaining.size
  stays : ∀ p seat, c.remaining.contains p = true → c.entrants.find? p = some seat →
    ((c.completeHand starting final).2.remaining.contains p = true ↔ ∀ stack, ¬ Busts starting final seat stack)
  placed : ∀ seat stack, Busts starting final seat stack → ∃ x ∈ (c.completeHand starting final).2.standings, x.seat = seat ∧
    (c.completeHand starting final).2.remaining.size < x.place ∧ x.place ≤ c.remaining.size
  ordered : ∀ x ∈ (c.completeHand starting final).2.standings, ∀ y ∈ (c.completeHand starting final).2.standings, ∀ s t,
    Busts starting final x.seat s → Busts starting final y.seat t → (s < t ∨ s = t ∧ x.seat < y.seat) → y.place < x.place

/-- A seat is in the standings once. -/
theorem Fielded.standing_unique (hf : Fielded config c) {x y : TournamentStanding} (hx : x ∈ c.standings) (hy : y ∈ c.standings)
    (hseat : x.seat = y.seat) : x = y := by
  have hplayer := hf.seats x.player y.player x.seat (hf.seated x hx) (hseat ▸ hf.seated y hy)
  exact List.inj_on_of_nodup_map hf.once hx hy hplayer

/-- What the crowning leaves of the standings and the field. -/
theorem crown_keeps (c : TournamentController) : c.crown.remaining = c.remaining ∧
    (∀ x ∈ c.standings, ∃ y ∈ c.crown.standings, y.seat = x.seat ∧ y.place = x.place) ∧
    c.standings.map (fun x => (x.player, x.place)) <+: c.crown.standings.map fun x => (x.player, x.place) := by
  rcases c.crown_cases with ⟨hsame, _⟩ | ⟨winner, _, hcrown⟩
  · rw [hsame]
    exact ⟨rfl, fun x hx => ⟨x, hx, rfl, rfl⟩, List.prefix_refl _⟩
  · rw [hcrown]
    refine ⟨rfl, fun x hx => ⟨withPayout c.config.payout x, List.mem_map_of_mem (List.mem_append_left _ hx), rfl, rfl⟩, ?_⟩
    unfold wonBy
    rw [List.map_map, List.map_append]
    exact List.prefix_append _ _

theorem Fielded.hand_ranked (hf : Fielded config c) (hp : c.Playing) (hc : c.Conserves starting final) :
    HandRanked c starting final := by
  obtain ⟨hstarting, hfinal⟩ := hc.nodup hf
  have hafter := hf.hand fun _ => hc
  obtain ⟨left, out, he, hpos, hclosed⟩ := hf.closes hp hc
  obtain ⟨hremaining, hstands, hkept⟩ := crown_keeps { left with handsCompleted := saturatingAdd64 c.handsCompleted 1 }
  have hstandings : left.standings = c.standings ++ out := by rw [he.frame]
  have hleft : (c.completeHand starting final).2.remaining = left.remaining := by rw [hclosed, hremaining]
  have hsize := he.size
  rw [List.length_map] at hsize
  -- the busted seat at `k` has the `k`th place from the last of the field
  have hplace : ∀ k seat stack, (bustedIn starting final)[k]? = some (seat, stack) →
      ∃ x ∈ (c.completeHand starting final).2.standings, x.seat = seat ∧ x.place = c.remaining.size - k := by
    intro k seat stack hk
    have hseat : (out.map (·.seat))[k]? = some seat := by rw [he.seats, List.getElem?_map, hk]; rfl
    obtain ⟨x, hx, rfl⟩ := List.getElem?_map .. ▸ hseat |> Option.map_eq_some_iff.mp
    have hlt : k < (bustedIn starting final).length := (List.getElem?_eq_some_iff.mp hk).1
    have hxplace : (out.map (·.place))[k]? = some (c.remaining.size - k) := by
      rw [he.places, List.getElem?_map, List.length_map, List.getElem?_range' hlt]
      simp
    rw [List.getElem?_map, hx] at hxplace
    obtain ⟨y, hy, hyseat, hyplace⟩ := hstands x (by
      show x ∈ left.standings
      rw [hstandings]
      exact List.mem_append_right _ (List.mem_of_getElem? hx))
    rw [hclosed]
    exact ⟨y, hy, hyseat, hyplace.trans (Option.some.inj hxplace)⟩
  have hindex : ∀ seat stack, Busts starting final seat stack → ∃ k : Nat, (bustedIn starting final)[k]? = some (seat, stack) :=
    fun seat stack hb => List.mem_iff_getElem?.mp ((mem_bustedSeats hstarting hfinal).mpr hb)
  refine ⟨by rw [hclosed], ?_, by rw [hleft]; exact hpos, ?_, ?_, ?_⟩
  · rw [hclosed]
    refine List.IsPrefix.trans ?_ hkept
    rw [hstandings, List.map_append]
    exact List.prefix_append _ _
  · intro p seat hin hseat
    rw [hleft, he.left p]
    constructor
    · intro ⟨_, hstays⟩ stack hb
      obtain ⟨k, hk⟩ := hindex seat stack hb
      have hout : seat ∈ out.map (·.seat) := by
        rw [he.seats]
        exact List.mem_map_of_mem (List.mem_of_getElem? hk)
      obtain ⟨x, hx, rfl⟩ := List.mem_map.mp hout
      have hsame := hf.seats x.player p x.seat (he.seated x hx).1 hseat
      exact hstays (hsame ▸ List.mem_map_of_mem hx)
    · intro hnone
      refine ⟨hin, fun hout => ?_⟩
      obtain ⟨x, hx, rfl⟩ := List.mem_map.mp hout
      have hbusted : x.seat ∈ (bustedIn starting final).map (·.1) := he.seats ▸ List.mem_map_of_mem hx
      obtain ⟨e, hmem, heq⟩ := List.mem_map.mp hbusted
      rw [(he.seated x hx).1] at hseat
      refine hnone e.2 ?_
      rw [← Option.some.inj hseat, ← heq]
      exact (mem_bustedSeats hstarting hfinal).mp hmem
  · intro seat stack hb
    obtain ⟨k, hk⟩ := hindex seat stack hb
    have hlt := (List.getElem?_eq_some_iff.mp hk).1
    obtain ⟨x, hx, hseat, hxplace⟩ := hplace k seat stack hk
    rw [hleft]
    exact ⟨x, hx, hseat, by omega, by omega⟩
  · intro x hx y hy s t hbx hby hshorter
    obtain ⟨k, hk⟩ := hindex _ _ hbx
    obtain ⟨l, hl⟩ := hindex _ _ hby
    obtain ⟨hklt, hkeq⟩ := List.getElem?_eq_some_iff.mp hk
    obtain ⟨hllt, hleq⟩ := List.getElem?_eq_some_iff.mp hl
    obtain ⟨x', hx', hxseat, hxplace⟩ := hplace k _ _ hk
    obtain ⟨y', hy', hyseat, hyplace⟩ := hplace l _ _ hl
    rw [hafter.standing_unique hx hx' hxseat.symm, hafter.standing_unique hy hy' hyseat.symm, hxplace, hyplace]
    have hlt : k < l := by
      rcases Nat.lt_trichotomy k l with hlt | rfl | hlt
      · exact hlt
      · obtain ⟨hseats, hstacks⟩ := Prod.mk.inj (Option.some.inj (hk.symm.trans hl))
        rw [hseats, hstacks] at hshorter
        simp at hshorter
      · have hsorted := pairwise_bustedSeats (stacksBySeat starting) (stacksBySeat final)
        have hpair := List.pairwise_iff_getElem.mp hsorted l k hllt hklt hlt
        rw [hkeq, hleq] at hpair
        simp only [Shorter, Fin.le_def, Fin.lt_def] at hpair hshorter
        omega
    omega

/-- A run of a validated plan whose shares make up the whole ranks its field, at every hand. -/
theorem play_ranks (hnew : TournamentController.new config = .ok c) (hshares : config.payout.sharesBps.sum = payoutBasisPoints)
    (ops : List TournamentOp) (hplays : c.Plays ops) : Ranked (c.play ops) ∧
      ∀ starting final, (c.play ops).Playing → (c.play ops).Conserves starting final →
        HandRanked (c.play ops) starting final := by
  have hf := (fielded_new hnew).play ops hplays
  exact ⟨hf.ranked hshares, fun starting final hp hc => hf.hand_ranked hp hc⟩

/-! ### Two plans -/

/-- Three enter with a hundred chips each. -/
def threeEnter (payout : TournamentPayoutPlan) : TournamentConfig where
  name := "cup"
  entrants := 3
  startingStack := 100
  levels := [⟨1, 2, 0, 60, 0⟩]
  payout := payout
  joinCode := ""

/-- The first two seats bust in the only hand. -/
def oneHand : List TournamentOp :=
  [.register ⟨⟨1⟩, 0⟩, .register ⟨⟨2⟩, 1⟩, .register ⟨⟨3⟩, 2⟩, .start,
    .hand [(0, 100), (1, 100), (2, 100)] [(0, 0), (1, 0), (2, 300)]]

theorem play_ranks_uneven : ∃ c, TournamentController.new (threeEnter ⟨101, [5000, 3000, 2000]⟩) = .ok c ∧ c.Plays oneHand ∧
    Ranked (c.play oneHand) := by
  have hplays : (TournamentController.new (threeEnter ⟨101, [5000, 3000, 2000]⟩)).toOption.map
      (fun c => decide (c.Plays oneHand)) = some true := by decide +kernel
  cases hnew : TournamentController.new (threeEnter ⟨101, [5000, 3000, 2000]⟩) with
  | error e =>
    rw [hnew] at hplays
    cases hplays
  | ok c =>
    rw [hnew] at hplays
    have hplays := of_decide_eq_true (Option.some.inj hplays)
    exact ⟨c, rfl, hplays, (play_ranks hnew rfl oneHand hplays).1⟩

/-- Shares that come to the whole only once their sum has wrapped pay out more than the pool. -/
theorem wrapped_shares_overpay : ∃ c, TournamentController.new (threeEnter ⟨1, [4294967295, 1, 10000]⟩) = .ok c ∧
    c.Plays oneHand ∧ (c.play oneHand).status = .complete ∧
    (c.play oneHand).standings.map (fun x => (x.place, x.payout)) = [(3, 2), (2, 1), (1, 429497)] ∧
    ¬ Ranked (c.play oneHand) := by
  have hplayed : (TournamentController.new (threeEnter ⟨1, [4294967295, 1, 10000]⟩)).toOption.map (fun c =>
      (decide (c.Plays oneHand), (c.play oneHand).status, (c.play oneHand).config.payout.pool,
        (c.play oneHand).standings.map fun x => (x.place, x.payout))) =
      some (true, .complete, 1, [(3, 2), (2, 1), (1, 429497)]) := by decide +kernel
  cases hnew : TournamentController.new (threeEnter ⟨1, [4294967295, 1, 10000]⟩) with
  | error e =>
    rw [hnew] at hplayed
    cases hplayed
  | ok c =>
    rw [hnew] at hplayed
    obtain ⟨hplays, hrest⟩ := Prod.mk.inj (Option.some.inj hplayed)
    obtain ⟨hstatus, hrest⟩ := Prod.mk.inj hrest
    obtain ⟨hpool, hpaid⟩ := Prod.mk.inj hrest
    refine ⟨c, rfl, of_decide_eq_true hplays, hstatus, hpaid, fun hranked => ?_⟩
    have hsum := hranked.pool hstatus
    have hpayouts : (c.play oneHand).standings.map (·.payout) =
        ((c.play oneHand).standings.map fun x => (x.place, x.payout)).map (·.2) := by rw [List.map_map]; rfl
    rw [hpayouts, hpaid, hpool] at hsum
    cases hsum

/-- With a larger pool such a plan is accepted and cannot be paid out. -/
example : (threeEnter ⟨1000000, [4294967295, 1, 10000]⟩).validate = .ok () ∧
    payoutPanics ⟨1000000, [4294967295, 1, 10000]⟩ = true := by decide +kernel

end TournamentController

end OpenFelt
