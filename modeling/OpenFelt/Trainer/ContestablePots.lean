/-
  OpenFelt.Trainer.ContestablePots — the pot that the trainer tells a player it can win
  (`src/trainer/facts.rs`, `Facts::calculate`).

  The trainer cuts pots of its own from the contributions a call would leave. Proved, at
  every decision of every run (`facts_exact`): the fact is a closed form of those
  contributions; it is what a hand settled over them pays the caller who wins every pot it
  is in for; and the call's cost is what the hand moves for it.
-/

import OpenFelt.Game.Payouts
import OpenFelt.Game.PotLayers
import OpenFelt.Trainer.Observations

namespace OpenFelt

open Betting

namespace MultiwayHand

/-- What a seat has put in once `p` has put in `cost` more. -/
def afterCall (h : MultiwayHand) (p : SeatId) (cost : Nat) (q : SeatId) : Nat :=
  (h.seat q).handContribution + if q = p then cost else 0

/-- The largest contribution of the others. -/
def largestOther (h : MultiwayHand) (p : SeatId) : Nat :=
  ((h.occupiedSeats.filter fun q => q ≠ p).map fun q => (h.seat q).handContribution).foldr max 0

/-- A hand settled over what `p`'s call leaves in `h`, with `p` still in and the sole winner of all its pots. -/
structure WonBy (h : MultiwayHand) (p : SeatId) (cost : Nat) (k : MultiwayHand) : Prop where
  showdown : k.phase = .showdown
  contributions : k.settledContributions.map (fun e => (e.seat, e.amount)) =
    h.occupiedSeats.map fun q => (q, h.afterCall p cost q)
  inHand : ∃ e ∈ k.settledContributions, e.seat = p ∧ e.eligible = true
  wins : ∀ award ∈ k.awards, p ∈ award.eligible → award.winners = [p]

/-- What the awards pay a seat. -/
def paidTo (k : MultiwayHand) (p : SeatId) : Nat := (k.awards.map fun award => Ledger.credited award.entries p).sum

/-- A call, or the all-in of a player who cannot cover one. -/
def CallsWith (h : MultiwayHand) : Action → Prop
  | .call _ => True
  | .allIn n => n ≤ h.currentWager
  | _ => False

/-- The facts of `p`'s decision are the hand's own. -/
structure FactsExact (h : MultiwayHand) (p : SeatId) (o : Trainer.Observation) : Prop where
  formula : (Trainer.Facts.calculate o).contestablePotAfterCall = (h.occupiedSeats.map fun q =>
    min (h.afterCall p o.callCost q) (min (h.afterCall p o.callCost p) (h.largestOther p))).sum
  /-- Whatever hand was settled so, and however it came to be. -/
  settles : ∀ (c : HandConfig) (start : MultiwayHand) (ops : List HandOp), HandStarts c start → (start.run ops).panicked = false →
    h.WonBy p o.callCost (start.run ops) → (start.run ops).paidTo p = (Trainer.Facts.calculate o).contestablePotAfterCall
  moves : ∀ action, h.CallsWith action → h.validateCommand ⟨p, action⟩ = .ok () →
    ((h.recordAction p action).seat p).handContribution = h.afterCall p o.callCost p ∧
      ((h.recordAction p action).seat p).stack + o.callCost = (h.seat p).stack ∧
      ∀ q, q ≠ p → (h.recordAction p action).seat q = h.seat q
  free : o.legal.canCheck = true → o.callCost = 0
  /-- No sum or product of the calculation leaves `u32`. -/
  fits : (h.occupiedSeats.map (h.afterCall p o.callCost)).sum ≤ u32Max

/-! ## The trainer's pots -/

section facts
variable {h k g : MultiwayHand} {p q : SeatId} {o : Trainer.Observation} {legal : MultiwayLegalActions} {cost : Nat}
  {action : Action}

/-- The contributions that the trainer cuts pots of. -/
def calledEntries (h : MultiwayHand) (p : SeatId) (cost : Nat) : List Contribution :=
  h.occupiedSeats.map fun q => ⟨q, h.afterCall p cost q, (h.publicSeat q).contesting⟩

theorem Sees.contestable_eq (hs : h.Sees p o) : (Trainer.Facts.calculate o).contestablePotAfterCall =
    (((buildPots (h.calledEntries p o.callCost)).pots.filter fun pot => pot.eligible.contains p).map (·.amount)).sum := by
  unfold Trainer.Facts.calculate
  dsimp only
  rw [hs.seats, hs.actor, List.map_map]
  rfl

theorem afterCall_ne (hq : q ≠ p) : h.afterCall p cost q = (h.seat q).handContribution := by
  unfold afterCall
  rw [if_neg hq, Nat.add_zero]

/-- What others have put in, of any list of contributions like those the call leaves. -/
theorem secondLargest_eq {entries : List Contribution} {a : Contribution} (ha : a.seat = p)
    (hsame : entries.map (fun e => (e.seat, e.amount)) = h.occupiedSeats.map fun q => (q, h.afterCall p cost q)) :
    secondLargest entries a = h.largestOther p := by
  have hfilter : (entries.filter fun e => e.seat ≠ a.seat).map (·.amount) =
      ((entries.map fun e => (e.seat, e.amount)).filter fun e => e.1 ≠ p).map (·.2) := by
    rw [List.filter_map, List.map_map, ha]
    rfl
  unfold secondLargest largestOther
  rw [hfilter, hsame, List.filter_map, List.map_map]
  refine congrArg (fun l => List.foldr max 0 l) (List.map_congr_left ?_)
  intro q hq
  exact afterCall_ne (of_decide_eq_true (List.mem_filter.mp hq).2)

/-- The pots of `p` in any contributions like those the call leaves. -/
theorem pots_of_entries {entries : List Contribution}
    (hsame : entries.map (fun e => (e.seat, e.amount)) = h.occupiedSeats.map fun q => (q, h.afterCall p cost q))
    (hin : ∃ e ∈ entries, e.seat = p ∧ e.eligible = true) :
    (((buildPots entries).pots.filter fun pot => pot.eligible.contains p).map (·.amount)).sum =
      (h.occupiedSeats.map fun q => min (h.afterCall p cost q) (min (h.afterCall p cost p) (h.largestOther p))).sum := by
  obtain ⟨a, ha, hseat, heligible⟩ := hin
  have hseats : entries.map (·.seat) = h.occupiedSeats := by
    have hfirst := congrArg (List.map Prod.fst) hsame
    rw [List.map_map, List.map_map] at hfirst
    exact hfirst.trans (List.map_id _)
  have hamounts : amounts entries = h.occupiedSeats.map (h.afterCall p cost) := by
    have hsecond := congrArg (List.map Prod.snd) hsame
    rw [List.map_map, List.map_map] at hsecond
    exact hsecond
  have hamount : a.amount = h.afterCall p cost p := by
    have hmem : (a.seat, a.amount) ∈ h.occupiedSeats.map fun q => (q, h.afterCall p cost q) := by
      rw [← hsame]
      exact List.mem_map_of_mem ha
    obtain ⟨q, _, he⟩ := List.mem_map.mp hmem
    obtain ⟨h1, h2⟩ := Prod.mk.inj he
    rw [← h2, h1, hseat]
  have hsum := eligible_pots_sum (by rw [hseats]; exact nodup_occupiedSeats h) ha heligible
  rw [hseat, hamount, secondLargest_eq hseat hsame, hamounts, List.map_map] at hsum
  exact hsum

theorem calledEntries_pairs : (h.calledEntries p cost).map (fun e => (e.seat, e.amount)) =
    h.occupiedSeats.map fun q => (q, h.afterCall p cost q) := by
  unfold calledEntries
  rw [List.map_map]
  rfl

theorem Acting.formula (ha : h.Acting p legal) (hs : h.Sees p o) : (Trainer.Facts.calculate o).contestablePotAfterCall =
    (h.occupiedSeats.map fun q => min (h.afterCall p o.callCost q)
      (min (h.afterCall p o.callCost p) (h.largestOther p))).sum := by
  have hpart : (h.publicSeat p).participation = .live := status_live.mp ha.live
  have hin : ∃ e ∈ h.calledEntries p o.callCost, e.seat = p ∧ e.eligible = true := by
    refine ⟨_, List.mem_map_of_mem ha.mem, rfl, ?_⟩
    show (h.publicSeat p).contesting = true
    unfold Trainer.PublicSeat.contesting
    rw [hpart]
    rfl
  rw [hs.contestable_eq]
  exact pots_of_entries calledEntries_pairs hin

/-! ## The engine's settlement -/

/-- An award pays its winners, who are eligible. -/
theorem awardsOf_pays {pots : List (Pot × Nat)} {award : PotAward} (ha : award ∈ h.awardsOf pots) :
    award.payouts = potPayouts award.amount award.winners ∧ ∀ q ∈ award.winners, q ∈ award.eligible := by
  obtain ⟨x, _, hx⟩ := List.mem_filterMap.mp ha
  obtain ⟨best, _, rfl⟩ := Option.map_eq_some_iff.mp hx
  exact ⟨rfl, fun q hq => (mem_winnersOf.mp hq).1⟩

theorem credited_award {award : PotAward}
    (hpays : award.payouts = potPayouts award.amount award.winners ∧ ∀ q ∈ award.winners, q ∈ award.eligible)
    (hwins : p ∈ award.eligible → award.winners = [p]) :
    Ledger.credited award.entries p = if award.eligible.contains p = true then award.amount else 0 := by
  obtain ⟨hpayouts, hin⟩ := hpays
  by_cases hp : p ∈ award.eligible
  · rw [if_pos (List.contains_iff_mem.mpr hp), PotAward.entries, hpayouts, hwins hp]
    simp [potPayouts, Nat.mod_one]
  · rw [if_neg (by rw [List.contains_iff_mem]; exact hp)]
    unfold Ledger.credited
    rw [List.filter_eq_nil_iff.mpr]
    · rfl
    · intro e he hseat
      obtain ⟨payout, hpayout, rfl⟩ := List.mem_map.mp he
      have hseat : payout.seat = p := of_decide_eq_true hseat
      rw [hpayouts] at hpayout
      exact hp (hseat ▸ hin _ (mem_potPayouts hpayout))

theorem sum_ite_filter {α : Type} (l : List α) (keep : α → Bool) (f : α → Nat) :
    (l.map fun x => if keep x = true then f x else 0).sum = ((l.filter keep).map f).sum := by
  induction l with
  | nil => rfl
  | cons x l ih =>
    rw [List.map_cons, List.sum_cons, ih]
    by_cases hx : keep x = true
    · rw [if_pos hx, List.filter_cons_of_pos hx, List.map_cons, List.sum_cons]
    · rw [if_neg hx, List.filter_cons_of_neg hx, Nat.zero_add]

/-- A settled hand pays the sole winner of its pots those pots. -/
theorem Settled.paidTo (hs : Settled g k) (hx : SettledExactly g k)
    (hwins : ∀ award ∈ k.awards, p ∈ award.eligible → award.winners = [p]) :
    k.paidTo p = (((buildPots g.contributionSnapshot).pots.filter fun pot => pot.eligible.contains p).map (·.amount)).sum := by
  have hawards : k.awards = k.awardsOf k.pots.zipIdx := by conv_lhs => rw [hs.frame]
  have heach : ∀ award ∈ k.awards, Ledger.credited award.entries p =
      if award.eligible.contains p = true then award.amount else 0 := by
    intro award haward
    have hpays := awardsOf_pays (hawards ▸ haward)
    exact credited_award hpays (hwins award haward)
  unfold MultiwayHand.paidTo
  rw [List.map_congr_left heach, ← hx.pots, List.filter_map, List.map_map]
  exact sum_ite_filter k.awards (fun award => award.eligible.contains p) (·.amount)

/-- However a hand got there, settled over what the call leaves it pays the sole winner the contestable pot. -/
theorem settled_pays {c : HandConfig} {start : MultiwayHand} (hstarts : HandStarts c start) (ops : List HandOp)
    (hok : (start.run ops).panicked = false) (hwon : h.WonBy p cost (start.run ops)) : (start.run ops).paidTo p =
      (h.occupiedSeats.map fun q => min (h.afterCall p cost q) (min (h.afterCall p cost p) (h.largestOther p))).sum := by
  have hbutton := hstarts.button
  have hstage := hstarts.stage.run ops
  generalize start.run ops = k at hstage hok hwon
  have hphase := hwon.showdown
  cases hstage with
  | playing _ hp =>
    have haccepts := hp.accepts
    rw [hphase] at haccepts
    cases haccepts
  | showing _ hsh _ =>
    have haccepts := hsh.contest.accepts
    rw [hphase] at haccepts
    cases haccepts
  | folded _ hu hone =>
    obtain ⟨_, hf⟩ := awardFold_spec hu.balanced hone
    rw [hf.frame] at hphase
    cases hphase
  | @settled _ g hc hg =>
    have hsettled := hg.settled (hg.takers_of_ok hok)
    have hbooked := hg.balanced.booked
    have hsits : occupiedIn g.seats g.button = true := by
      rw [hc.occupied, hc.button]
      exact hbutton
    have hexact := hsettled.exactly ⟨hbooked.1, hbooked.2, hbooked.3, hbooked.4⟩ hsits
    have hcut : g.settle.settledContributions = ({ g with showdownProgress := none } : MultiwayHand).contributionSnapshot := by
      rw [hsettled.frame]
    rw [hsettled.paidTo hexact hwon.wins, ← hcut]
    exact pots_of_entries hwon.contributions hwon.inHand

/-! ## The call -/

/-- A target within the stack moves the difference, and only the caller's chips. -/
theorem recordAction_commits (action : Action) (hb : h.Booked) (hocc : occupiedIn h.seats p = true) {target : Nat}
    (hlo : (h.seat p).streetContribution ≤ target) (hhi : target ≤ (h.seat p).streetContribution + (h.seat p).stack)
    (hmoves : h.moveChips p action = h.commitTo p target ∨
      h.moveChips p action = (h.commitTo p target).updateSeat p fun state => { state with participation := .allIn }) :
    ((h.recordAction p action).seat p).handContribution = (h.seat p).handContribution + (target - (h.seat p).streetContribution) ∧
      ((h.recordAction p action).seat p).stack + (target - (h.seat p).streetContribution) = (h.seat p).stack ∧
      ∀ q, q ≠ p → (h.recordAction p action).seat q = h.seat q := by
  obtain ⟨htable, _, hself, hother⟩ := commitTo_spec hb hocc hlo hhi
  have hocc' : occupiedIn (h.commitTo p target).seats p = true := by rw [htable.occupied, hocc]
  have hmoved : occupiedIn (h.moveChips p action).seats p = true ∧
      ((h.moveChips p action).seat p).handContribution = (h.seat p).handContribution + (target - (h.seat p).streetContribution) ∧
      ((h.moveChips p action).seat p).stack = (h.seat p).stack - (target - (h.seat p).streetContribution) ∧
      ∀ q, q ≠ p → (h.moveChips p action).seat q = h.seat q := by
    rcases hmoves with he | he
    · rw [he]
      refine ⟨hocc', ?_, ?_, hother⟩
      · rw [hself]
        rfl
      · rw [hself]
        rfl
    · rw [he]
      have hkept := seat_updateSeat_self (f := fun state => { state with participation := .allIn }) hocc'
      refine ⟨((updateSeat_table _ p _).occupied p).trans hocc', ?_, ?_, ?_⟩
      · rw [hkept, hself]
        rfl
      · rw [hkept, hself]
        rfl
      · intro q hq
        exact (seat_updateSeat_ne hq).trans (hother q hq)
  obtain ⟨hoccupied, hput, hleft, hothers⟩ := hmoved
  have hmark : (h.recordAction p action).seat p = ((h.moveChips p action).markResponse p).seat p := rfl
  have hmarked := seat_markResponse_self (h := h.moveChips p action) hoccupied
  refine ⟨?_, ?_, ?_⟩
  · rw [hmark, hmarked]
    exact hput
  · rw [hmark, hmarked]
    show ((h.moveChips p action).seat p).stack + _ = _
    rw [hleft]
    omega
  · intro q hq
    show ((h.moveChips p action).markResponse p).seat q = _
    rw [seat_markResponse_ne hq]
    exact hothers q hq

theorem Acting.moves (ha : h.Acting p legal) (hs : h.Sees p o) (hcalls : h.CallsWith action)
    (hv : h.validateCommand ⟨p, action⟩ = .ok ()) :
    ((h.recordAction p action).seat p).handContribution = h.afterCall p o.callCost p ∧
      ((h.recordAction p action).seat p).stack + o.callCost = (h.seat p).stack ∧
      ∀ q, q ≠ p → (h.recordAction p action).seat q = h.seat q := by
  obtain ⟨posted, hp⟩ := ha.playing
  have hbet : (h.seat p).streetContribution ≤ h.currentWager := hp.sound.bet_le p
  have hfit : (h.seat p).streetContribution + (h.seat p).stack ≤ u32Max := hp.booked.street_fits p
  have hocc : occupiedIn h.seats p = true := (mem_occupiedSeats hp.booked.length).mp ha.mem
  have hall : legal.allInTo = (h.seat p).streetContribution + (h.seat p).stack := ha.menu.allInTo
  have hoffered := ha.offered_of_valid hv
  have hcost := hs.callCost
  have hafter : h.afterCall p o.callCost p = (h.seat p).handContribution + o.callCost := by
    unfold afterCall
    rw [if_pos rfl]
  rw [hafter]
  cases action with
  | fold | check | bet n | raise n => exact absurd hcalls id
  | call n =>
    obtain ⟨hn, _, hless⟩ := (ha.menu.callAmount n).mp hoffered
    have hn : n = h.currentWager - (h.seat p).streetContribution := hn
    have hless : n < (h.seat p).stack := hless
    have hcost : o.callCost = n := by omega
    have hcheck : fitsU32 ((h.seat p).streetContribution + n) = true := by
      simp only [fitsU32, decide_eq_true_eq]
      omega
    have hmoves : h.moveChips p (.call n) = h.commitTo p ((h.seat p).streetContribution + n) := by
      simp only [moveChips, hcheck, check_true]
    have hdone := recordAction_commits (.call n) hp.booked hocc (Nat.le_add_right _ _)
      (Nat.add_le_add_left (Nat.le_of_lt hless) _) (Or.inl hmoves)
    rw [Nat.add_sub_cancel_left] at hdone
    rw [hcost]
    exact hdone
  | allIn n =>
    have hle : n ≤ h.currentWager := hcalls
    obtain ⟨hn, _⟩ := hoffered
    have hcost : o.callCost = (h.seat p).stack := by omega
    have hn : n = (h.seat p).streetContribution + (h.seat p).stack := hn.trans hall
    have hmoves : h.moveChips p (.allIn n) =
        (h.commitTo p n).updateSeat p fun state => { state with participation := .allIn } := by
      simp only [moveChips, if_neg (Nat.not_lt.mpr hle)]
    have hdone := recordAction_commits (.allIn n) hp.booked hocc (hn ▸ Nat.le_add_right _ _) (Nat.le_of_eq hn) (Or.inr hmoves)
    rw [hn, Nat.add_sub_cancel_left] at hdone
    rw [hcost, hn]
    exact hdone

/-- The call is covered by the caller's own chips, so what it leaves is no more than was there. -/
theorem Acting.fits (ha : h.Acting p legal) (hs : h.Sees p o) :
    (h.occupiedSeats.map (h.afterCall p o.callCost)).sum ≤ u32Max := by
  obtain ⟨posted, hp⟩ := ha.playing
  have hb := hp.balanced
  have hcost : o.callCost ≤ (h.seat p).stack := by
    rw [hs.callCost]
    exact Nat.min_le_right _ _
  have heach : ∀ q ∈ h.occupiedSeats, h.afterCall p o.callCost q ≤ (h.seat q).stack + (h.seat q).handContribution := by
    intro q _
    unfold afterCall
    by_cases hq : q = p
    · subst hq
      rw [if_pos rfl]
      omega
    · rw [if_neg hq]
      omega
  have htotal : (h.occupiedSeats.map fun q => (h.seat q).stack + (h.seat q).handContribution).sum = h.totalChips := by
    rw [List.sum_map_add]
    rfl
  calc (h.occupiedSeats.map (h.afterCall p o.callCost)).sum
      ≤ (h.occupiedSeats.map fun q => (h.seat q).stack + (h.seat q).handContribution).sum := List.sum_le_sum heach
    _ = h.totalChips := htotal
    _ = h.initialTotal := hb.total
    _ ≤ u32Max := hb.fits

theorem Acting.free (ha : h.Acting p legal) (hs : h.Sees p o) (hcheck : o.legal.canCheck = true) : o.callCost = 0 := by
  rw [ha.menu_eq hs] at hcheck
  have hle : h.currentWager ≤ (h.seat p).streetContribution := ha.menu.canCheck.mp hcheck
  rw [hs.callCost]
  omega

end facts

/-! ## Every decision -/

section claim
variable {c : HandConfig} {h : MultiwayHand} {p : SeatId}

/-- At every decision of every run the facts of the observation are exact. -/
theorem facts_exact (hstarts : HandStarts c h) (ops : List HandOp) (hto : (h.run ops).toAct = some p) (handId : HandId) :
    ∃ o, (h.run ops).observation handId p = .ok o ∧ (h.run ops).FactsExact p o := by
  obtain ⟨legal, o, ha, ho, hs, _⟩ := hstarts.acting ops hto handId
  have hformula := ha.formula hs
  refine ⟨o, ho, hformula, ?_, ?_, ha.free hs, ha.fits hs⟩
  · intro c' start ops' hstarts' hok hwon
    rw [hformula]
    exact settled_pays hstarts' ops' hok hwon
  · intro action hcalls hv
    exact ha.moves hs hcalls hv

/-- On the flop seat 2 faces a bet of 20, with seat 5 all in for less. Its call can win all but the one chip that
    seat 0 has in alone. -/
theorem facts_exact_three : ∃ h o, HandStarts threeHanded h ∧ (h.run (threeHandedToShowdown.take 5)).toAct = some 2 ∧
    (h.run (threeHandedToShowdown.take 5)).observation ⟨1⟩ 2 = .ok o ∧ o.callCost = 20 ∧
    (Trainer.Facts.calculate o).contestablePotAfterCall = 69 ∧ (h.run (threeHandedToShowdown.take 5)).FactsExact 2 o := by
  have hturn : (threeHanded.build.toOption.map fun h =>
      let h := ({ h with pacedShowdown := false } : MultiwayHand).run (threeHandedToShowdown.take 5)
      (h.toAct, (h.observation ⟨1⟩ 2).toOption.map fun o =>
        (o.callCost, (Trainer.Facts.calculate o).contestablePotAfterCall))) = some (some 2, some (20, 69)) := by decide +kernel
  cases hbuild : threeHanded.build with
  | error e =>
    rw [hbuild] at hturn
    cases hturn
  | ok start =>
    rw [hbuild] at hturn
    obtain ⟨hto, hfacts⟩ := Prod.mk.inj (Option.some.inj hturn)
    have hs : HandStarts threeHanded { start with pacedShowdown := false } := ⟨⟨.refl _, rfl⟩, start, false, hbuild, rfl⟩
    obtain ⟨o, ho, hexact⟩ := facts_exact hs (threeHandedToShowdown.take 5) hto ⟨1⟩
    rw [ho] at hfacts
    obtain ⟨hcost, hpot⟩ := Prod.mk.inj (Option.some.inj hfacts)
    exact ⟨_, o, hs, hto, ho, hcost, hpot, hexact⟩

end claim

end MultiwayHand

end OpenFelt
