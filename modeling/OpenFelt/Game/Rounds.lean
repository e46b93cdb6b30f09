/-
  OpenFelt.Game.Rounds — how a betting round runs and when raising reopens.

  Proved of every state a run reaches: raising is open to a seat exactly when the
  street's records say so, and the least raise moves only with a full raise
  (`run_reopens`); a street ends exactly when nobody is left to respond, and otherwise
  the nearest seat clockwise that is left to respond is asked (`run_closes`).
-/

import OpenFelt.Game.History
import OpenFelt.Game.Runs

namespace OpenFelt

open Betting

namespace MultiwayHand

/-! ## The street under way -/

section reads
variable {h : MultiwayHand} {posted : Nat} {p : SeatId}

/-- The wager and the least raise the street opened with. -/
def streetStart (posted : Nat) (h : MultiwayHand) : Nat × Nat := (h.opening posted, h.blindValues.bigBlind)

theorem UnderWay.reads (hu : h.UnderWay posted) : Lifted (h.streetStart posted) h.streetHistory ∧
    inForce (h.streetStart posted) h.streetHistory = (h.currentWager, h.lastFullRaiseSize) := by
  obtain ⟨s₀, hf, hw, hp, hl⟩ := hu.play
  have hstart : h.streetStart posted = (s₀.wager, s₀.raise) := by rw [streetStart, hw, hf.raise_eq]
  rw [hstart]
  exact ⟨hl, (hp.force hf hu.blind).1⟩

/-- The gate answers as the records do. -/
theorem UnderWay.reopened_iff (hu : h.UnderWay posted) (hlive : (h.seat p).participation = .live) :
    h.raiseReopenedFor p = true ↔ Reopened (h.streetStart posted) h.streetHistory p := by
  obtain ⟨hlift, hforce⟩ := hu.reads
  obtain ⟨s₀, hf, hw, hp, _⟩ := hu.play
  have hstart : h.streetStart posted = (s₀.wager, s₀.raise) := by rw [streetStart, hw, hf.raise_eq]
  rw [raiseReopenedFor_iff, hp.open_iff hf hu.blind p (status_live.mpr hlive), ← hstart]
  exact reopened_iff_turns hlift hu.blind (by rw [hforce]; rfl)

/-- A seat that can still act is marked once it has acted. -/
theorem UnderWay.marked_iff (hu : h.UnderWay posted) (hlive : (h.seat p).participation = .live) :
    (h.seat p).lastActionWager ≠ none ↔ ∃ record ∈ h.streetHistory, record.seat = p := by
  obtain ⟨s₀, hf, _, hp, _⟩ := hu.play
  obtain ⟨hnone, hsome⟩ := hp.mark hf p (status_live.mpr hlive)
  constructor
  · intro hm
    obtain ⟨w, hw⟩ := Option.ne_none_iff_exists'.mp hm
    obtain ⟨pre, post, he, _⟩ := hsome w hw
    have hmem : (⟨p, w⟩ : Turn SeatId) ∈ h.streetHistory.map (·.toTurn) := by
      rw [show h.streetHistory.map (·.toTurn) = h.turns from rfl, he]; simp
    obtain ⟨record, hr, ht⟩ := List.mem_map.mp hmem
    exact ⟨record, hr, congrArg Turn.player ht⟩
  · rintro ⟨record, hr, rfl⟩ hm
    exact hnone hm record.toTurn (List.mem_map_of_mem hr) rfl

end reads

/-! ## What a call does to the history -/

/-- Between two turns of one seat another seat raised the wager. -/
def RaisedBetween (records : List MultiwayActionRecord) : Prop :=
  ∀ a t b u c, records = a ++ t :: (b ++ u :: c) → t.seat = u.seat →
    ∃ x w v y, t :: b = x ++ w :: v :: y ∧ v.seat ≠ t.seat ∧ w.wagerAfter < v.wagerAfter

section step
variable {h g k : MultiwayHand} {posted : Nat} {p : SeatId} {c : HandConfig}

theorem UnderWay.raisedBetween (hu : h.UnderWay posted) : RaisedBetween h.streetHistory := by
  intro a t b u c he htu
  obtain ⟨s₀, hf, _, hp, _⟩ := hu.play
  have hturns : h.turns = a.map (·.toTurn) ++ t.toTurn :: (b.map (·.toTurn) ++ u.toTurn :: c.map (·.toTurn)) := by
    rw [turns, he]; simp
  obtain ⟨x', v', y', hb, hne, hlt⟩ := hp.once hf hu.blind hturns htu
  obtain ⟨x, rest, rfl, rfl, hrest⟩ := List.map_eq_append_iff.mp hb
  obtain ⟨v, y, rfl, rfl, rfl⟩ := List.map_eq_cons_iff.mp hrest
  -- the wager before `v` is the one its predecessor left
  rcases List.eq_nil_or_concat x with rfl | ⟨x, w, rfl⟩
  · refine ⟨[], t, v, y, by simp, hne, ?_⟩
    simpa [forceAfter, force, MultiwayActionRecord.toTurn] using hlt
  · refine ⟨t :: x, w, v, y, by simp, hne, ?_⟩
    have hsplit : a.map (·.toTurn) ++ t.toTurn :: (x ++ [w]).map (·.toTurn) =
        (a.map (·.toTurn) ++ t.toTurn :: x.map (·.toTurn)) ++ [w.toTurn] := by simp
    rw [List.concat_eq_append, hsplit] at hlt
    simpa [forceAfter, force, MultiwayActionRecord.toTurn] using hlt

/-- What becomes of the books after an action: the records stay, and the least raise too
    unless a new street is dealt. -/
structure Follows (g k : MultiwayHand) : Prop where
  history : k.actionHistory = g.actionHistory
  raise : k.lastFullRaiseSize = g.lastFullRaiseSize ∨ (k.phase ≠ g.phase ∧ k.lastFullRaiseSize = g.blindValues.bigBlind)

theorem UnderWay.begins_follows (hu : g.UnderWay posted) (hcount : 2 ≤ g.potEligibleCount)
    (hend : g.phase = .river ∨ (g.bettingLocked = true ∧ g.anyAllIn = true)) :
    Follows g (g.beginShowdown g.anyAllIn) ∧ (g.beginShowdown g.anyAllIn).toAct = none := by
  obtain ⟨_, _, _, hf⟩ := hu.opens hcount hend
  rcases hu.begins hcount hend with ⟨_, _, _, he⟩ | ⟨_, k, _, _, hshows, he⟩
  · rw [he, hf]; exact ⟨⟨rfl, Or.inl rfl⟩, rfl⟩
  · have hk : k.actionHistory = g.actionHistory ∧ k.lastFullRaiseSize = g.lastFullRaiseSize := by
      rw [hshows, hf]; exact ⟨rfl, rfl⟩
    obtain ⟨hkeep, _, hto⟩ := resolveShowdown_ends { k with showdownProgress := none }
    rw [he]
    exact ⟨⟨hkeep.history.trans hk.1, Or.inl (hkeep.raise.trans hk.2)⟩, hto⟩

theorem Proceeds.follows (hu : g.UnderWay posted) (hp : Proceeds posted p g k) : Follows g k := by
  cases hp with
  | foldedOut hone =>
    obtain ⟨_, hf⟩ := awardFold_spec hu.balanced hone
    exact ⟨by rw [hf.frame], Or.inl (by rw [hf.frame])⟩
  | asks q _ _ _ => exact ⟨rfl, Or.inl rfl⟩
  | deals _ _ hriver _ =>
    have hf := (dealStreet_frame hu hriver).1
    have ht := updateOccupied_table g fun state => { state with streetContribution := 0, lastActionWager := none }
    have hlater := MultiwayPhase.next_later hu.accepts hriver
    have hphase : g.dealStreet.phase = g.phase.next := by rw [hf]
    refine ⟨?_, Or.inr ⟨fun e => ?_, congrArg (·.lastFullRaiseSize) hf⟩⟩
    · rw [hf, clearStreet, ht.frame]
    · rw [hphase] at e
      rw [e] at hlater; omega
  | shows hcount _ hend => exact (hu.begins_follows hcount hend).1

/-- Calls either leave the records and the least raise alone, or record one action. -/
inductive Recorded (posted : Nat) (h : MultiwayHand) : MultiwayHand → Prop
  | same {k : MultiwayHand} : k.actionHistory = h.actionHistory → k.lastFullRaiseSize = h.lastFullRaiseSize → Recorded posted h k
  | acted {k g : MultiwayHand} {p : SeatId} {action : Action} {o : Outcome} : h.Playing posted → g.UnderWay posted →
      Allowed h.street p o → Acted h p action o g → Follows g k → Recorded posted h k

theorem Stage.recorded (hs : Stage c posted h) (op : HandOp) : Recorded posted h (op.apply h).2 := by
  by_cases hr : (op.apply h).1 = false
  · rw [apply_refused hr]; exact .same rfl rfl
  cases hs with
  | settled _ _ => exact absurd (settle_over _).refuses hr
  | folded _ hu hone => exact absurd (awardFold_over hu hone).refuses hr
  | showing _ hsh _ =>
    obtain rfl : op = .advance := by
      by_contra hop; exact hr (hsh.refuses hop)
    rcases hsh.advance_cases with ⟨h', _, he, _, hshows, _, _⟩ | ⟨k, _, _, hshows, _, he⟩
    · rw [show HandOp.advance.apply h = _ from he]
      exact .same (by rw [hshows]) (by rw [hshows])
    · obtain ⟨hkeep, _, _⟩ := resolveShowdown_ends { k with showdownProgress := none }
      rw [show HandOp.advance.apply h = _ from he]
      exact .same (hkeep.history.trans (by rw [hshows])) (hkeep.raise.trans (by rw [hshows]))
  | playing _ hp =>
    cases op with
    | advance => exact absurd (show (HandOp.advance.apply h).1 = false by
        rw [show HandOp.advance.apply h = (false, h) from advanceShowdown_none hp.quiet.progress]) hr
    | alwaysShow q v =>
      simp only [HandOp.apply, setAlwaysShow]
      split
      · exact .same rfl rfl
      split
      · exact .same rfl rfl
      · exact .same rfl rfl
    | command command =>
      simp only [HandOp.apply, applyCommand] at hr ⊢
      cases hv : h.validateCommand command with
      | error e => rw [hv] at hr; exact absurd rfl hr
      | ok u =>
        obtain ⟨o, g, ha, hacted, hu, _, _, hproceeds⟩ := hp.command_cases hv
        exact .acted hp hu ha hacted (hproceeds.follows hu)

end step

/-! ## Raising -/

/-- The least raise moves only with a full raise, to its size, or back to the big blind for
    a new street. -/
def RaiseStep (least : Nat) (k k' : MultiwayHand) : Prop :=
  k'.lastFullRaiseSize = k.lastFullRaiseSize ∨
    (k'.phase ≠ k.phase ∧ k'.lastFullRaiseSize = least) ∨
    ∃ record, k'.actionHistory = k.actionHistory ++ [record] ∧ FullRaise (k.currentWager, k.lastFullRaiseSize) record ∧
      k.lastFullRaiseSize ≤ k'.lastFullRaiseSize ∧ k'.lastFullRaiseSize = record.wagerAfter - k.currentWager

/-- Raising goes by the street's records; `posted` is the wager before the first action and
    `least` the big blind. -/
structure RaisesByRule (posted least : Nat) (k : MultiwayHand) : Prop where
  toAct : ∀ p, k.toAct = some p → (k.seat p).participation = .live
  inForce : k.toAct.isSome = true → inForce (k.opening posted, least) k.streetHistory = (k.currentWager, k.lastFullRaiseSize)
  reopened : k.toAct.isSome = true → ∀ p, (k.seat p).participation = .live →
    (k.raiseReopenedFor p = true ↔ Reopened (k.opening posted, least) k.streetHistory p)
  /-- One short all-in since its turn does not reopen raising for a seat. -/
  single : k.toAct.isSome = true → ∀ pre last post, k.streetHistory = pre ++ last :: post →
    (k.seat last.seat).participation = .live → (∀ record ∈ post, record.seat ≠ last.seat) →
    (∀ a x b, post = a ++ x :: b → ¬ FullRaise (MultiwayHand.inForce (k.opening posted, least) (pre ++ last :: a)) x) →
    (shortAllIns (MultiwayHand.inForce (k.opening posted, least) (pre ++ [last])) post).length ≤ 1 →
    k.raiseReopenedFor last.seat = false
  least_le : least ≤ k.lastFullRaiseSize
  opens : k.toAct.isSome = true → k.streetHistory = [] → k.lastFullRaiseSize = least
  step : ∀ op : HandOp, RaiseStep least k (op.apply k).2

section raising
variable {h g k : MultiwayHand} {posted : Nat} {c : HandConfig}

theorem Acted.raiseStep {p : SeatId} {action : Action} {o : Outcome} (hu : h.UnderWay posted) (hug : g.UnderWay posted)
    (ha : Allowed h.street p o) (hacted : Acted h p action o g) (hk : Follows g k) : RaiseStep h.blindValues.bigBlind h k := by
  have hf := hacted.frame
  have hraise : g.lastFullRaiseSize = o.raise := by rw [hf]
  have hphase : g.phase = h.phase := by rw [hf]
  have hbb : g.blindValues = h.blindValues := by rw [hf]
  rcases hk.raise with he | ⟨hne, he⟩
  · obtain ⟨hle, hlow, hfull⟩ := ha.raise_le
    have hleast : h.blindValues.bigBlind ≤ h.lastFullRaiseSize := hu.sound.least_le
    have hblind := hu.blind
    by_cases hup : h.lastFullRaiseSize ≤ o.wager - h.currentWager
    · have hnew : o.raise = o.wager - h.currentWager := hfull (show h.currentWager < o.wager by omega) hup
      have hle : h.lastFullRaiseSize ≤ o.raise := hle
      have hlift : action.Lifts (h.currentWager, h.lastFullRaiseSize) o.wager := by
        have hl := hug.reads.1
        rw [hacted.streetHistory] at hl
        have hstart : g.streetStart posted = h.streetStart posted := by simp only [streetStart, opening, hphase, hbb]
        rw [hstart, lifted_append, hu.reads.2] at hl
        exact hl.2.1
      refine Or.inr (Or.inr ⟨⟨h.actionHistory.length + 1, h.phase, p, action, o.wager⟩, ?_, ?_, ?_, ?_⟩)
      · rw [hk.history, hf]
      · exact (fullRaise_iff hlift (Nat.lt_of_lt_of_le hblind hleast)).mpr hup
      · rw [he, hraise]; exact hle
      · rw [he, hraise]; exact hnew
    · have hsame : o.raise = h.lastFullRaiseSize := hlow (show o.wager - h.currentWager < h.lastFullRaiseSize by omega)
      exact Or.inl (by rw [he, hraise, hsame])
  · exact Or.inr (Or.inl ⟨hphase ▸ hne, by rw [he, hbb]⟩)

theorem Stage.raiseStep (hs : Stage c posted k) (op : HandOp) : RaiseStep c.blindValues.bigBlind k (op.apply k).2 := by
  have hrec := hs.recorded op
  generalize (op.apply k).2 = k' at hrec
  cases hrec with
  | same _ hr => exact Or.inl hr
  | acted hp hug ha hacted hf =>
    obtain ⟨_, hto, _⟩ := hp.toAct
    rw [← (hs.playing_of_toAct hto).1.blindValues]
    exact hacted.raiseStep hp.toUnderWay hug ha hf

theorem Playing.raises (hp : k.Playing posted) (hc : Carries c k)
    (hstep : ∀ op : HandOp, RaiseStep c.blindValues.bigBlind k (op.apply k).2) :
    RaisesByRule posted c.blindValues.bigBlind k := by
  have hu := hp.toUnderWay
  have hbb : k.blindValues = c.blindValues := hc.blindValues
  have hstart : k.streetStart posted = (k.opening posted, c.blindValues.bigBlind) := by rw [streetStart, hbb]
  obtain ⟨_, hforce⟩ := hu.reads
  rw [hstart] at hforce
  have hpos : 0 < c.blindValues.bigBlind := hbb ▸ hu.blind
  refine ⟨fun p hto => ?_, fun _ => hforce, fun _ p hlive => ?_, fun _ pre last post he hlive hpost hfull hone => ?_, ?_,
    fun _ hnil => ?_, hstep⟩
  · exact status_live.mp (hp.live hto)
  · rw [hu.reopened_iff hlive, hstart]
  · by_contra hopen
    have := (hu.reopened_iff hlive).mp (by simpa using hopen)
    rw [hstart] at this
    exact not_reopened_of_single hpos he rfl hpost hfull hone this
  · have := hu.sound.least_le
    rw [hbb] at this; exact this
  · rw [hnil] at hforce
    exact (congrArg Prod.snd hforce).symm

/-- With nobody to act there is nothing to ask but that the least raise is a big blind. -/
theorem RaisesByRule.waiting {least : Nat} (hto : k.toAct = none) (hle : least ≤ k.lastFullRaiseSize)
    (hstep : ∀ op : HandOp, RaiseStep least k (op.apply k).2) : RaisesByRule posted least k := by
  have hnot : ¬ k.toAct.isSome = true := by rw [hto]; simp
  exact ⟨fun p hp => absurd hp (by rw [hto]; simp), fun h => absurd h hnot, fun h => absurd h hnot, fun h => absurd h hnot,
    hle, fun h => absurd h hnot, hstep⟩

theorem Stage.raises (hs : Stage c posted k) : RaisesByRule posted c.blindValues.bigBlind k := by
  have hstep := hs.raiseStep
  cases hs with
  | playing hc hp => exact hp.raises hc hstep
  | showing hc hsh _ =>
    exact .waiting hsh.contest.waiting
      (by have := hsh.contest.sound.least_le; rwa [hc.blindValues] at this) hstep
  | @settled _ g hc hg =>
    have hraise : g.settle.lastFullRaiseSize = g.lastFullRaiseSize :=
      (resolveShowdown_ends { g with showdownProgress := none }).1.raise
    refine .waiting (settle_over g).toAct ?_ hstep
    have := hg.contest.sound.least_le
    rw [hc.blindValues] at this
    rw [hraise]; exact this
  | folded hc hu hone =>
    obtain ⟨_, hf⟩ := awardFold_spec hu.balanced hone
    refine .waiting (awardFold_over hu hone).toAct ?_ hstep
    have := hu.sound.least_le
    rw [hc.blindValues] at this
    rw [hf.frame]; exact this

/-- Raising follows the street's records in every state a run reaches. -/
theorem run_reopens (hstarts : HandStarts c h) (ops : List HandOp) :
    RaisesByRule h.currentWager c.blindValues.bigBlind (h.run ops) := (hstarts.stage.run ops).raises

theorem run_reopens_three : ∃ h, HandStarts threeHanded h ∧ RaisesByRule h.currentWager 2 (h.run threeHandedToShowdown) := by
  obtain ⟨h, hs, _⟩ := threeHanded_starts
  exact ⟨h, hs, run_reopens hs threeHandedToShowdown⟩

end raising

/-! ## Closing a round -/

/-- `p` has acted on the street being played. -/
def HasActed (h : MultiwayHand) (p : SeatId) : Prop := ∃ record ∈ h.streetHistory, record.seat = p

/-- `p` can act, and has not acted or not matched the wager. -/
def Owes (h : MultiwayHand) (p : SeatId) : Prop :=
  (h.seat p).canAct = true ∧ (¬ h.HasActed p ∨ (h.seat p).streetContribution < h.currentWager)

/-- No seat can act; or one can and has matched the wager; or all that can have acted and
    matched it. -/
def RoundOver (h : MultiwayHand) : Prop :=
  (∀ p, ¬ (h.seat p).canAct = true) ∨
    (∃ p, (h.seat p).canAct = true ∧ (∀ q, (h.seat q).canAct = true → q = p) ∧ (h.seat p).streetContribution = h.currentWager) ∨
    ∀ p, (h.seat p).canAct = true → h.HasActed p ∧ (h.seat p).streetContribution = h.currentWager

/-- The betting on the street of `k` is done with. -/
def StreetEnds (k k' : MultiwayHand) : Prop := k'.toAct = none ∨ k'.phase ≠ k.phase

section closing
variable {h g k : MultiwayHand} {posted : Nat} {p q : SeatId} {c : HandConfig}

theorem UnderWay.canAct_iff (hu : g.UnderWay posted) : (g.seat p).canAct = true ↔ (g.seat p).participation = .live :=
  (MultiwayHand.canAct_iff hu.sound).trans status_live

theorem UnderWay.owes_iff (hu : g.UnderWay posted) : g.Owes p ↔ g.needsAction p = true := by
  rw [Owes, needsAction]
  simp only [Bool.and_eq_true, Bool.or_eq_true, decide_eq_true_eq]
  refine and_congr_right fun hact => or_congr_left ?_
  rw [Option.isNone_iff_eq_none, HasActed, ← hu.marked_iff (hu.canAct_iff.mp hact), not_not]

theorem UnderWay.roundOver_iff (hu : g.UnderWay posted) : g.RoundOver ↔ g.bettingRoundComplete = true := by
  have hlen := hu.booked.length
  have hbet : ∀ q, (g.seat q).streetContribution ≤ g.currentWager := hu.sound.bet_le
  rw [bettingRoundComplete_iff hlen, RoundOver]
  refine or_congr ?_ (or_congr ?_ ?_)
  · rw [List.eq_nil_iff_forall_not_mem]
    exact forall_congr' fun q => not_congr (mem_actors hlen).symm
  · constructor
    · rintro ⟨p, hact, hall, hw⟩
      refine ⟨p, ?_, Nat.le_of_eq hw.symm⟩
      have hn : g.actors.Nodup := (nodup_occupiedSeats g).filter _
      have hm := (mem_actors hlen).mpr hact
      refine List.perm_singleton.mp ((List.perm_ext_iff_of_nodup hn (List.nodup_singleton p)).mpr fun q => ?_)
      rw [List.mem_singleton]
      exact ⟨fun hq => hall q ((mem_actors hlen).mp hq), fun e => e ▸ hm⟩
    · rintro ⟨p, hp, hw⟩
      refine ⟨p, (mem_actors hlen).mp (by rw [hp]; simp), fun q hq => ?_, Nat.le_antisymm (hbet p) hw⟩
      have := (mem_actors hlen).mpr hq
      rw [hp] at this
      exact List.mem_singleton.mp this
  · refine forall_congr' fun q => ?_
    rw [mem_actors hlen]
    refine forall_congr' fun hact => ?_
    rw [hu.marked_iff (hu.canAct_iff.mp hact)]
    exact and_congr_right fun _ => ⟨fun e => Nat.le_of_eq e.symm, fun hle => Nat.le_antisymm (hbet q) hle⟩

/-- The last seat in the hand has put up the wager. -/
theorem UnderWay.over_of_one (hu : g.UnderWay posted) (hone : g.potEligibleCount = 1) : g.RoundOver := by
  have hlen := hu.booked.length
  obtain ⟨w, hw⟩ := List.length_eq_one_iff.mp hone
  have honly : ∀ q, g.street.InHand q → q = w := fun q hq => by
    have := (mem_eligible hlen).mpr hq
    rw [hw] at this; exact List.mem_singleton.mp this
  have hmatch : (g.seat w).streetContribution = g.currentWager := by
    have hle : (g.seat w).streetContribution ≤ g.currentWager := hu.sound.bet_le w
    by_cases hz : g.currentWager = 0
    · omega
    · obtain ⟨e, hin, he⟩ := hu.sound.holder (Nat.pos_of_ne_zero hz)
      rw [honly e hin] at he; exact he
  have hcan : ∀ q, (g.seat q).canAct = true → q = w := fun q hq =>
    honly q (Or.inl ((MultiwayHand.canAct_iff hu.sound).mp hq))
  by_cases hact : (g.seat w).canAct = true
  · exact Or.inr (Or.inl ⟨w, hact, hcan, hmatch⟩)
  · exact Or.inl fun q hq => hact (hcan q hq ▸ hq)

/-- A run only ever adds records to the street it is on. -/
theorem Stage.raisedBetween (hs : Stage c posted h) (hh : ∀ phase, RaisedBetween (h.actionHistory.filter (·.phase = phase)))
    (op : HandOp) (phase : MultiwayPhase) : RaisedBetween ((op.apply h).2.actionHistory.filter (·.phase = phase)) := by
  have hrec := hs.recorded op
  generalize (op.apply h).2 = k at hrec
  cases hrec with
  | same he _ => rw [he]; exact hh phase
  | @acted g _ _ _ hp hug _ hacted hf =>
    rw [hf.history]
    have hphase : g.phase = h.phase := by rw [hacted.frame]
    by_cases e : phase = h.phase
    · have := hug.raisedBetween
      rw [streetHistory, hphase] at this
      rw [e]; exact this
    · have hsame : g.actionHistory.filter (·.phase = phase) = h.actionHistory.filter (·.phase = phase) := by
        have hg : g.actionHistory = _ := congrArg (·.actionHistory) hacted.frame
        rw [hg, List.filter_append]
        simp [Ne.symm e]
      rw [hsame]; exact hh phase

theorem Stage.raisedBetween_run (hs : Stage c posted h) (hh : ∀ phase, RaisedBetween (h.actionHistory.filter (·.phase = phase)))
    (ops : List HandOp) : ∀ phase, RaisedBetween ((h.run ops).actionHistory.filter (·.phase = phase)) := by
  induction ops generalizing h with
  | nil => exact hh
  | cons op ops ih => exact ih (hs.step op) (hs.raisedBetween hh op)

/-- What `apply_command` makes of an action, given the books `g` the action left: the street
    ends if the round is over, and otherwise the nearest seat clockwise that owes is asked. -/
structure Closes (k : MultiwayHand) (p : SeatId) (g k' : MultiwayHand) : Prop where
  ends : StreetEnds k k' ↔ g.RoundOver
  next : ¬ g.RoundOver → ∃ q, k'.toAct = some q ∧ g.Owes q ∧
    ∀ r, g.Owes r → clockwiseAwardKey k.tableSize p q ≤ clockwiseAwardKey k.tableSize p r

theorem Playing.closes (hp : k.Playing posted) {command : SeatCommand} (hv : k.validateCommand command = .ok ()) :
    Closes k command.seat (k.recordAction command.seat command.action) (k.applyCommand command).2 := by
  obtain ⟨o, g, ha, hacted, hu, hg, hasked, hproceeds⟩ := hp.command_cases hv
  have happly : (k.applyCommand command).2 = k.applyValidatedAction command.seat command.action := by
    simp only [applyCommand, hv]
  rw [happly, ← hg]
  have hphase : g.phase = k.phase := by rw [hacted.frame]
  generalize k.applyValidatedAction command.seat command.action = k' at hproceeds
  cases hproceeds with
  | foldedOut hone =>
    have hover := hu.over_of_one hone
    exact ⟨⟨fun _ => hover, fun _ => Or.inl (awardFold_over hu hone).toAct⟩, fun hn => absurd hover hn⟩
  | asks q hcount hopen hq =>
    have hnot : ¬ g.RoundOver := by rw [hu.roundOver_iff, hopen]; simp
    have hocc : occupiedIn g.seats command.seat = true := by
      rw [hacted.occupied]; exact occupied_of_status (by rw [hasked.1]; simp)
    obtain ⟨hneeds, hmin⟩ := nextNeedingAfter_spec hu.booked.length (lt_of_occupied hu.booked.length hocc) hq
    have hsize : g.tableSize = k.tableSize := by rw [hacted.frame]
    refine ⟨⟨fun he => ?_, fun ho => absurd ho hnot⟩, fun _ => ⟨q, rfl, hu.owes_iff.mpr hneeds, fun r hr => ?_⟩⟩
    · rcases he with e | e
      · cases e
      · exact absurd hphase e
    · rw [← hsize]; exact hmin r (hu.owes_iff.mp hr)
  | deals hcount hdone hriver hact =>
    have hover := hu.roundOver_iff.mpr hdone
    refine ⟨⟨fun _ => hover, fun _ => Or.inr fun e => ?_⟩, fun hn => absurd hover hn⟩
    have hlater := MultiwayPhase.next_later hu.accepts hriver
    have hnext : g.dealStreet.phase = g.phase.next := by rw [(dealStreet_frame hu hriver).1]
    rw [hnext, ← hphase] at e
    rw [e] at hlater; omega
  | shows hcount hdone hend =>
    have hover := hu.roundOver_iff.mpr hdone
    exact ⟨⟨fun _ => hover, fun _ => Or.inl (hu.begins_follows hcount hend).2⟩, fun hn => absurd hover hn⟩

/-- In every state a run reaches, only a live seat with chips is to act, an accepted action
    ends the street exactly when the round is over and otherwise asks the next seat that
    owes, and on each street no seat has acted twice without a raise by another between. -/
theorem run_closes (hstarts : HandStarts c h) (ops : List HandOp) :
    (∀ p, (h.run ops).toAct = some p → ((h.run ops).seat p).participation = .live ∧ 0 < ((h.run ops).seat p).stack) ∧
      (∀ command : SeatCommand, (h.run ops).validateCommand command = .ok () → Closes (h.run ops) command.seat
        ((h.run ops).recordAction command.seat command.action) ((h.run ops).applyCommand command).2) ∧
      ∀ phase, RaisedBetween ((h.run ops).actionHistory.filter (·.phase = phase)) := by
  have hstage := hstarts.stage.run ops
  have hempty : ∀ phase, RaisedBetween (h.actionHistory.filter (·.phase = phase)) := fun phase a t b u c he => by
    rw [hstarts.history] at he; simp at he
  have hbetween := hstarts.stage.raisedBetween_run hempty ops
  refine ⟨fun p hto => ?_, fun command hv => (hstage.playing_of_accepted hv).2.closes hv, hbetween⟩
  obtain ⟨_, hp⟩ := hstage.playing_of_toAct hto
  have hlive := hp.live hto
  exact ⟨status_live.mp hlive, hp.sound.live_stack p hlive⟩

theorem run_closes_three : ∃ h, HandStarts threeHanded h ∧
    ∀ phase, RaisedBetween ((h.run threeHandedToShowdown).actionHistory.filter (·.phase = phase)) := by
  obtain ⟨h, hs, _⟩ := threeHanded_starts
  exact ⟨h, hs, (run_closes hs threeHandedToShowdown).2.2⟩

end closing

end MultiwayHand

end OpenFelt
