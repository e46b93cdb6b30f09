/-
  OpenFelt.Game.DeadPosts — what becomes of a dead small blind (`src/game/lifecycle.rs`,
  `src/game/multiway.rs`, `commit_dead_chips` and `build_pots`).

  A dead chip is in a seat's total, which `build_pots` layers, and not in its calls. So
  a seat whose lead over the others is its dead chip is handed that chip back. Proved:
  - `returned_within_live`: returns stay within the live excess exactly when the leader's
    dead chips are covered by what some other seat has put in beyond its calls.
  - `run_keeps_dead`: the same of every run of every hand that `begin_hand` starts.
-/

import OpenFelt.Game.LifecycleRuns
import OpenFelt.Game.Payouts

namespace OpenFelt

open Betting

/-! ## Returns and live chips -/

section pots
variable {contributions : List Contribution} {dead : SeatId → Nat}

/-- A contribution less its seat's dead chips. -/
def Contribution.live (dead : SeatId → Nat) (e : Contribution) : Nat := e.amount - dead e.seat

/-- No return is more than the live chips its seat has over any other. -/
def WithinLive (dead : SeatId → Nat) (contributions : List Contribution) (returned : List ReturnedExcess) : Prop :=
  ∀ r ∈ returned, ∀ e ∈ contributions, e.seat = r.seat → ∀ e' ∈ contributions, e'.seat ≠ r.seat →
    e'.live dead + r.amount ≤ e.live dead

/-- Were the dead chips of a seat alone on top added to another seat's calls, they would
    still be within what one of the others has put in. -/
def DeadMatched (dead : SeatId → Nat) (contributions : List Contribution) : Prop :=
  ∀ top ∈ contributions, (∀ e ∈ contributions, e.seat ≠ top.seat → e.amount < top.amount) →
    ∀ e ∈ contributions, e.seat ≠ top.seat → ∃ e' ∈ contributions, e'.seat ≠ top.seat ∧
      e.live dead + dead top.seat ≤ e'.amount

theorem seat_inj (hn : (contributions.map (·.seat)).Nodup) {e e' : Contribution} (he : e ∈ contributions)
    (he' : e' ∈ contributions) (h : e.seat = e'.seat) : e = e' := List.inj_on_of_nodup_map hn he he' h

theorem returned_within_live (hn : (contributions.map (·.seat)).Nodup) :
    WithinLive dead contributions (buildPots contributions).returned ↔ DeadMatched dead contributions := by
  constructor
  · intro hwithin top htop hlead e he hne
    have halone : ∀ e ∈ contributions, e ≠ top → e.amount < top.amount := fun e he hne =>
      hlead e he fun h => hne (seat_inj hn he htop h)
    have hpos : 0 < top.amount := Nat.lt_of_le_of_lt (Nat.zero_le _) (hlead e he hne)
    obtain ⟨r, hr, hseat⟩ := returned_of_top hn htop hpos halone
    obtain ⟨top', htop', hled⟩ := mem_returned_lead hr
    obtain rfl : top' = top := seat_inj hn hled.mem htop (htop'.trans hseat)
    obtain ⟨e', he', hne', hsecond⟩ := hled.second e he fun h => hne (h ▸ rfl)
    refine ⟨e', he', fun h => hne' (seat_inj hn he' htop h), ?_⟩
    have hle := hwithin r hr top' htop hseat.symm e he (hseat ▸ hne)
    have hpositive := hled.positive
    simp only [Contribution.live] at hle ⊢
    omega
  · intro hmatched r hr e he hseat e' he' hne
    obtain ⟨top, htop, hled⟩ := mem_returned_lead hr
    obtain rfl : e = top := seat_inj hn he hled.mem (hseat.trans htop.symm)
    have halone : ∀ x ∈ contributions, x.seat ≠ e.seat → x.amount < e.amount := fun x hx hne => by
      have hothers := hled.others x hx fun h => hne (h ▸ rfl)
      have hpositive := hled.positive
      omega
    obtain ⟨s, hs, hother, hcovers⟩ := hmatched e he halone e' he' (hseat ▸ hne)
    have hothers := hled.others s hs fun h => hother (h ▸ rfl)
    simp only [Contribution.live] at hcovers ⊢
    omega

/-- Then contributors level on live chips, two of them in the hand, are returned nothing. -/
theorem returned_of_level (hmatched : WithinLive dead contributions (buildPots contributions).returned)
    {p q : Contribution} (hp : p ∈ contributions) (hq : q ∈ contributions) (hpq : p.seat ≠ q.seat)
    (hin : p.eligible = true ∧ q.eligible = true)
    (hcovered : ∀ e ∈ contributions, e.eligible = false → ∃ e' ∈ contributions, e'.eligible = true ∧ e.amount ≤ e'.amount)
    (hlevel : ∀ e ∈ contributions, ∀ e' ∈ contributions, e.eligible = true → e'.eligible = true → e.live dead = e'.live dead) :
    (buildPots contributions).returned = [] := by
  refine List.eq_nil_iff_forall_not_mem.mpr fun r hr => ?_
  obtain ⟨top, htop, hled⟩ := mem_returned_lead hr
  have hpositive := hled.positive
  cases hel : top.eligible with
  | true =>
    obtain ⟨other, hother, hne, hoel⟩ : ∃ other ∈ contributions, other.seat ≠ top.seat ∧ other.eligible = true := by
      by_cases h : p.seat = top.seat
      · exact ⟨q, hq, fun h' => hpq (h.trans h'.symm), hin.2⟩
      · exact ⟨p, hp, h, hin.1⟩
    have hle := hmatched r hr top hled.mem htop other hother (htop ▸ hne)
    have heq := hlevel other hother top hled.mem hoel hel
    omega
  | false =>
    obtain ⟨e, he, heel, hle⟩ := hcovered top hled.mem hel
    have hlt := hled.others e he fun h => by rw [h, hel] at heel; cases heel
    omega

end pots

namespace MultiwayHand

/-! ## Every run of a started hand -/

/-- The chips a seat was dealt in with outside its calls. -/
def deadChips (h : MultiwayHand) (p : SeatId) : Nat := (h.seat p).handContribution - (h.seat p).streetContribution

/-- `k` comes from the dealt hand `h` and keeps its dead chips in the pots: a showdown level
    on live chips returns nothing and awards every chip, and no seat is ever returned more
    than its live excess. -/
structure KeepsDead (h k : MultiwayHand) : Prop where
  level : k.phase = .showdown →
    (∀ e ∈ k.settledContributions, ∀ e' ∈ k.settledContributions, e.eligible = true → e'.eligible = true →
      e.live h.deadChips = e'.live h.deadChips) →
    k.returnedExcess = [] ∧ (k.awards.map (·.amount)).sum = (k.settledContributions.map (·.amount)).sum
  excess : WithinLive h.deadChips k.settledContributions k.returnedExcess

section run
variable {c : HandConfig} {h g k : MultiwayHand} {progress : ShowdownProgress} {posted : Nat}

/-- Only a settled showdown has returned anything. -/
def Unreturned (k : MultiwayHand) : Prop := k.phase = .showdown ∨ k.returnedExcess = []

theorem Proceeds.unreturned {p : SeatId} (hu : g.UnderWay posted) (hp : Proceeds posted p g k) (hn : g.returnedExcess = []) :
    k.Unreturned := by
  cases hp with
  | foldedOut hone =>
    obtain ⟨_, hf⟩ := awardFold_spec hu.balanced hone
    exact Or.inr (by rw [hf.frame]; exact hn)
  | asks q _ _ _ => exact Or.inr hn
  | deals _ _ hriver _ =>
    have hf := (dealStreet_frame hu hriver).1
    have ht := updateOccupied_table g fun state => { state with streetContribution := 0, lastActionWager := none }
    exact Or.inr (by rw [hf, clearStreet, ht.frame]; exact hn)
  | shows hcount _ hend =>
    rcases hu.begins hcount hend with ⟨_, _, _, he⟩ | ⟨_, _, _, _, _, he⟩
    · obtain ⟨_, _, _, hf⟩ := hu.opens hcount hend
      exact Or.inr (by rw [he, hf]; exact hn)
    · exact Or.inl (by rw [he]; rfl)

theorem Stage.unreturned (hs : Stage c posted k) (hn : k.Unreturned) (op : HandOp) : (op.apply k).2.Unreturned := by
  by_cases hr : (op.apply k).1 = false
  · rw [apply_refused hr]; exact hn
  cases hs with
  | settled _ _ => exact absurd (settle_over _).refuses hr
  | folded _ hu hone => exact absurd (awardFold_over hu hone).refuses hr
  | showing _ hsh _ =>
    have hempty := hn.resolve_left fun e => by have := hsh.contest.accepts; rw [e] at this; cases this
    obtain rfl : op = .advance := by
      by_contra hop; exact hr (hsh.refuses hop)
    rcases hsh.advance_cases with ⟨_, _, he, _, hshows, _, _⟩ | ⟨_, _, _, _, _, he⟩
    · rw [show HandOp.advance.apply k = _ from he]
      exact Or.inr (by rw [hshows]; exact hempty)
    · rw [show HandOp.advance.apply k = _ from he]
      exact Or.inl rfl
  | playing _ hp =>
    have hempty := hn.resolve_left fun e => by have := hp.accepts; rw [e] at this; cases this
    cases op with
    | advance => exact absurd (show (HandOp.advance.apply k).1 = false by
        rw [show HandOp.advance.apply k = (false, k) from advanceShowdown_none hp.quiet.progress]) hr
    | alwaysShow q v =>
      simp only [HandOp.apply, setAlwaysShow]
      split
      · exact hn
      split
      · exact hn
      · exact Or.inr hempty
    | command command =>
      simp only [HandOp.apply, applyCommand] at hr ⊢
      cases hv : k.validateCommand command with
      | error e => rw [hv] at hr; exact absurd rfl hr
      | ok u =>
        obtain ⟨_, _, _, hacted, hu, _, _, hproceeds⟩ := hp.command_cases hv
        exact hproceeds.unreturned hu (by rw [hacted.frame]; exact hempty)

theorem Stage.unreturned_run (hs : Stage c posted k) (hn : k.Unreturned) (ops : List HandOp) : (k.run ops).Unreturned := by
  induction ops generalizing k with
  | nil => exact hn
  | cons op ops ih => exact ih (hs.step op) (hs.unreturned hn op)

theorem build_unreturned (hdeck : c.deck.Shuffled) (hb : c.build = .ok h) : h.Unreturned := by
  obtain ⟨seats, chips, sb, bb, first, table, hbuilt⟩ := build_built hb
  obtain ⟨hd, _⟩ := hbuilt.dealtIn hdeck
  have hpost := hbuilt.posting hdeck
  obtain ⟨hblinds, hcount, _, _, _, _, rfl⟩ := hbuilt
  generalize c.dealtTo seats chips sb bb = base at *
  have hu : (table.started first).UnderWay (table.started first).currentWager := hpost.underWay hd hblinds first
  have htwo : 2 ≤ (table.started first).potEligibleCount := hpost.contested hd hcount
  have hempty : (table.started first).returnedExcess = [] := by
    simp only [started]; rw [hpost.frame hd]; rfl
  have hopen : table.openPreflop first =
      { (table.started first).advanceAutomaticallyIfNeeded with pacedShowdown := false } := rfl
  rw [hopen, advanceAutomaticallyIfNeeded, hu.accepts, Bool.true_and]
  generalize table.started first = g at *
  by_cases hdone : g.bettingRoundComplete = true
  · have hadvanced : g.advanceStreet.Unreturned := by
      rw [advanceStreet_eq hu htwo]
      split
      · rename_i hend
        exact Proceeds.unreturned (p := first) hu (.shows htwo hdone hend) hempty
      · rename_i hend
        exact Proceeds.unreturned (p := first) hu (.deals htwo hdone (fun e => hend (Or.inl e))
          (two_actors hu htwo fun e => hend (Or.inr e))) hempty
    rw [if_pos hdone]
    exact hadvanced
  · rw [if_neg hdone]
    exact Or.inr hempty

/-- Whoever is out of the hand has put in no more than someone in it. -/
theorem snapshot_covered (hb : g.Booked) (hc : Covered g.street) : ∀ e ∈ g.contributionSnapshot, e.eligible = false →
    ∃ e' ∈ g.contributionSnapshot, e'.eligible = true ∧ e.amount ≤ e'.amount := by
  intro e he hout
  obtain ⟨hocc, hamount, heligible⟩ := (mem_snapshot hb.length).mp he
  have htotal : ∀ q, g.street.total q = (g.seat q).handContribution := fun q => by
    have := hb.street_le q
    simp only [Street.total, street]; omega
  have hfolded : (g.seat e.seat).participation = .folded := by
    rw [heligible] at hout
    cases hpart : (g.seat e.seat).participation with
    | live => simp [MultiwaySeatState.eligibleForPot, hpart] at hout
    | allIn => simp [MultiwaySeatState.eligibleForPot, hpart] at hout
    | folded => rfl
    | notDealt => exact absurd (by simp [street, hpart, HandParticipation.status]) (hb.dealt e.seat hocc)
  obtain ⟨q, hq, hle⟩ := hc e.seat (status_folded.mpr hfolded)
  rw [htotal, htotal, ← hamount] at hle
  have hel := inHand_iff.mp hq
  exact ⟨⟨q, (g.seat q).handContribution, (g.seat q).eligibleForPot⟩,
    (mem_snapshot hb.length).mpr ⟨occupied_of_eligible hel, rfl, rfl⟩, hel, hle⟩

/-- Two players contest the hand. -/
theorem snapshot_contested (hcount : 2 ≤ g.potEligibleCount) : ∃ p ∈ g.contributionSnapshot, ∃ q ∈ g.contributionSnapshot,
    p.seat ≠ q.seat ∧ p.eligible = true ∧ q.eligible = true := by
  have hn : (g.occupiedSeats.filter fun p => (g.seat p).eligibleForPot).Nodup := (nodup_occupiedSeats g).filter _
  have hentry : ∀ p ∈ g.occupiedSeats.filter fun p => (g.seat p).eligibleForPot,
      ⟨p, (g.seat p).handContribution, (g.seat p).eligibleForPot⟩ ∈ g.contributionSnapshot ∧
        (g.seat p).eligibleForPot = true := fun p hp =>
    ⟨List.mem_map.mpr ⟨p, (List.mem_filter.mp hp).1, rfl⟩, (List.mem_filter.mp hp).2⟩
  rw [potEligibleCount] at hcount
  rcases hl : g.occupiedSeats.filter fun p => (g.seat p).eligibleForPot with _ | ⟨p, _ | ⟨q, rest⟩⟩
  · rw [hl] at hcount; exact absurd hcount (by decide)
  · rw [hl] at hcount; exact absurd hcount (by simp)
  · rw [hl] at hentry hn
    obtain ⟨hp, hpel⟩ := hentry p (by simp)
    obtain ⟨hq, hqel⟩ := hentry q (by simp)
    have hne : p ≠ q := fun e => by simp [e] at hn
    exact ⟨_, hp, _, hq, hne, hpel, hqel⟩

/-- A settlement keeps the dead chips exactly when they are matched. -/
theorem Shown.keepsDead (hs : g.Shown progress) (hc : Carries c g) (hbacked : c.Backed)
    (hbutton : occupiedIn g.seats g.button = true) :
    KeepsDead h g.settle ↔ DeadMatched h.deadChips g.settle.settledContributions := by
  have hsettled := hs.settled (hs.takers hc hbacked)
  have hbooked := hs.balanced.booked
  have hexact := hsettled.exactly ⟨hbooked.1, hbooked.2, hbooked.3, hbooked.4⟩ hbutton
  have hcontributions : g.settle.settledContributions = g.contributionSnapshot := by rw [hsettled.frame]; rfl
  have hreturned : g.settle.returnedExcess = (buildPots g.contributionSnapshot).returned := by rw [hsettled.frame]; rfl
  have hn : (g.contributionSnapshot.map (·.seat)).Nodup := by rw [snapshot_seats]; exact nodup_occupiedSeats g
  rw [hcontributions, ← returned_within_live hn]
  constructor
  · intro hkeeps
    have hexcess := hkeeps.excess
    rw [hcontributions, hreturned] at hexcess
    exact hexcess
  · intro hwithin
    refine ⟨fun _ hlevel => ?_, by rw [hcontributions, hreturned]; exact hwithin⟩
    rw [hcontributions] at hlevel ⊢
    obtain ⟨_, _, hcovered⟩ := hc.covered hbacked
    obtain ⟨p, hp, q, hq, hpq, hin⟩ := snapshot_contested hs.contest.contested
    have hnone := returned_of_level hwithin hp hq hpq hin (snapshot_covered hbooked hcovered) hlevel
    refine ⟨hreturned.trans hnone, ?_⟩
    have hpots : g.settle.awards.map (·.amount) = (buildPots g.contributionSnapshot).pots.map (·.amount) := by
      have hsame := congrArg (List.map Pot.amount) hexact.pots
      rw [List.map_map] at hsame
      exact hsame
    have hsum := buildPots_sum g.contributionSnapshot
    rw [PotBuild.total, hnone] at hsum
    rw [hpots]
    exact hsum

/-- Hands that begin ask no seat for more than one dead chip. -/
theorem beginHand_backed {t : TableLifecycle} {start : HandStart} (hbegin : t.beginHand.1 = .ok start)
    (size : TableSize) (blinds : BlindValues) (deck : Deck) : (start.intoHand size blinds deck).Backed := by
  obtain ⟨_, rfl, _⟩ := TableLifecycle.beginHand_started hbegin
  exact forcedPosts_backed (TableSeats.nodup_kept _ (·.eligibleForNextHand) (·.blindObligation)) rfl

/-- In every run of every hand a table begins, the dead small blinds stay in the pots exactly
    when, at a showdown, the seat alone on top has its dead chips matched. -/
theorem run_keeps_dead {t : TableLifecycle} {start : HandStart} {size : TableSize} {blinds : BlindValues} {deck : Deck}
    (hbegin : t.beginHand.1 = .ok start) (hstarts : HandStarts (start.intoHand size blinds deck) h) (ops : List HandOp) :
    KeepsDead h (h.run ops) ↔
      ((h.run ops).phase = .showdown → DeadMatched h.deadChips (h.run ops).settledContributions) := by
  have hbacked := beginHand_backed hbegin size blinds deck
  have hbutton := hstarts.button
  have hunreturned : (h.run ops).Unreturned := by
    refine hstarts.stage.unreturned_run ?_ ops
    obtain ⟨hdeck, dealt, paced, hb, rfl⟩ := hstarts
    have hdealt := build_unreturned hdeck hb
    exact hdealt
  have hstage := hstarts.stage.run ops
  generalize start.intoHand size blinds deck = c at *
  generalize h.run ops = k at *
  have hquiet : k.phase ≠ .showdown → (KeepsDead h k ↔
      (k.phase = .showdown → DeadMatched h.deadChips k.settledContributions)) := by
    intro hphase
    have hempty := hunreturned.resolve_left hphase
    refine ⟨fun _ h => absurd h hphase, fun _ => ⟨fun h => absurd h hphase, fun r hr => ?_⟩⟩
    rw [hempty] at hr; cases hr
  cases hstage with
  | playing _ hp => exact hquiet fun e => by have := hp.accepts; rw [e] at this; cases this
  | showing _ hsh => exact hquiet fun e => by have := hsh.contest.accepts; rw [e] at this; cases this
  | folded _ hu hone =>
    obtain ⟨_, hf⟩ := awardFold_spec hu.balanced hone
    exact hquiet fun e => by rw [hf.frame] at e; cases e
  | settled hc hg =>
    refine (hg.keepsDead hc hbacked ?_).trans ⟨fun h _ => h, fun h => h rfl⟩
    rw [hc.occupied, hc.button]; exact hbutton

/-! ## A dead chip handed back -/

/-- Three players, the second of whom missed a small blind; the next button is theirs. -/
def missedSmall : TableLifecycle := (TableLifecycle.new .three).run
  [.join ⟨1⟩ 0 100, .join ⟨2⟩ 1 100, .join ⟨3⟩ 2 100, .beginHand, .completeHand [(0, 100), (1, 100), (2, 100)],
    .recordMissedBlind ⟨2⟩ .small]

/-- The hand they begin. -/
def missedSmallStart : HandStart := ⟨2, 1, [(0, 100), (1, 100), (2, 100)], [⟨1, 1, false⟩]⟩

/-- Everybody calls and checks. -/
def calledDown : List HandOp :=
  [.command ⟨1, .call 2⟩, .command ⟨2, .call 1⟩, .command ⟨0, .check⟩, .command ⟨2, .check⟩, .command ⟨0, .check⟩,
    .command ⟨1, .check⟩, .command ⟨2, .check⟩, .command ⟨0, .check⟩, .command ⟨1, .check⟩, .command ⟨2, .check⟩,
    .command ⟨0, .check⟩, .command ⟨1, .check⟩]

theorem missedSmall_begins : missedSmall.beginHand.1 = .ok missedSmallStart := by decide +kernel

theorem calledDown_ends : ∃ h, HandStarts (missedSmallStart.intoHand ⟨3, by decide, by decide⟩ .default .new) h ∧
    (h.run calledDown).phase = .showdown ∧ (h.run calledDown).returnedExcess = [⟨1, 1⟩] ∧
      ∀ e ∈ (h.run calledDown).settledContributions, e.eligible = true ∧ e.live h.deadChips = 2 := by
  have hrun : ((missedSmallStart.intoHand ⟨3, by decide, by decide⟩ .default .new).build.toOption.map fun h =>
      let k := MultiwayHand.run { h with pacedShowdown := false } calledDown
      (k.phase, k.returnedExcess, k.settledContributions.map fun e =>
        (e.eligible, e.live ({ h with pacedShowdown := false } : MultiwayHand).deadChips))) =
      some (.showdown, [⟨1, 1⟩], [(true, 2), (true, 2), (true, 2)]) := by decide +kernel
  cases h : (missedSmallStart.intoHand ⟨3, by decide, by decide⟩ .default .new).build with
  | error e => rw [h] at hrun; cases hrun
  | ok start =>
    rw [h] at hrun
    have hall := Option.some.inj hrun
    simp only [Prod.mk.injEq] at hall
    obtain ⟨hphase, hreturned, hlive⟩ := hall
    refine ⟨_, ⟨⟨.refl _, rfl⟩, start, false, h, rfl⟩, hphase, hreturned, fun e he => ?_⟩
    have hmem := List.mem_map_of_mem (f := fun e : Contribution =>
      (e.eligible, e.live ({ start with pacedShowdown := false } : MultiwayHand).deadChips)) he
    rw [hlive] at hmem
    simpa using hmem

theorem run_keeps_dead_three : ∃ h, HandStarts (missedSmallStart.intoHand ⟨3, by decide, by decide⟩ .default .new) h ∧
    (KeepsDead h (h.run calledDown) ↔
      ((h.run calledDown).phase = .showdown → DeadMatched h.deadChips (h.run calledDown).settledContributions)) := by
  obtain ⟨h, hs, _⟩ := calledDown_ends
  exact ⟨h, hs, run_keeps_dead missedSmall_begins hs calledDown⟩

/-- The dead small blind goes back to its player at a showdown where all have called the same. -/
theorem dead_small_blind_refunded : ∃ h, missedSmall.beginHand.1 = .ok missedSmallStart ∧
    HandStarts (missedSmallStart.intoHand ⟨3, by decide, by decide⟩ .default .new) h ∧
      (h.run calledDown).phase = .showdown ∧ ¬ KeepsDead h (h.run calledDown) := by
  obtain ⟨h, hs, hphase, hreturned, hlive⟩ := calledDown_ends
  refine ⟨h, missedSmall_begins, hs, hphase, fun hkeeps => ?_⟩
  have hnone := (hkeeps.level hphase fun e he e' he' _ _ => (hlive e he).2.trans (hlive e' he').2.symm).1
  rw [hreturned] at hnone
  cases hnone

end run

end MultiwayHand

end OpenFelt
