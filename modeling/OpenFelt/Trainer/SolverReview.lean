/-
  OpenFelt.Trainer.SolverReview — the solver's river is the hand's.

  A decision of a session that `eligibility` lets through has two seats left
  (`TwoHanded`), one of them out of position, and their river is a duel (`Ready`).
  Proved (`solver_replays`): `ranges` finds those two in that order, and `context` neither
  panics nor overflows; where it finishes, its line ends at the hand's own contributions,
  wager and player to act, from the hand's own pot and stacks; and where the effective
  stack covers the river's wagers it does not refuse the history.
-/

import OpenFelt.Trainer.BotTurns
import OpenFelt.Trainer.SolverLine

namespace OpenFelt

open Betting

namespace MultiwayHand

/-- What is in the pot from before the street. -/
def earlierPot (h : MultiwayHand) : Nat := h.sumSeats fun s => s.handContribution - s.streetContribution

/-- What a seat had when the street began. -/
def streetStack (h : MultiwayHand) (p : SeatId) : Nat := (h.seat p).stack + (h.seat p).streetContribution

/-- What the smaller of two stacks was when the street began. -/
def effectiveStack (h : MultiwayHand) (players : Fin 2 → SeatId) : Nat :=
  min (h.streetStack (players 0)) (h.streetStack (players 1))

/-- The two seats left, the first to act after the flop before the other. -/
structure TwoHanded (h : MultiwayHand) (players : Fin 2 → SeatId) : Prop where
  live : ∀ q, (h.seat q).participation = .live ↔ ∃ k, q = players k
  order : clockwiseAwardKey h.tableSize h.button (players 0) < clockwiseAwardKey h.tableSize h.button (players 1)

theorem TwoHanded.injective {h : MultiwayHand} {players : Fin 2 → SeatId} (ht : h.TwoHanded players) :
    Function.Injective players := by
  have hne : players 0 ≠ players 1 := fun he => absurd ht.order (by rw [he]; exact Nat.lt_irrefl _)
  intro i j he
  match i, j with
  | 0, 0 => rfl
  | 1, 1 => rfl
  | 0, 1 => exact absurd he hne
  | 1, 0 => exact absurd he.symm hne

end MultiwayHand

namespace Trainer

open MultiwayHand

/-! ## What `eligibility` has checked -/

structure Eligible (o : Observation) (first second : PublicSeat) : Prop where
  phase : o.phase = .river
  board : o.board.length = 5
  cards : o.holeCards.length = 2
  live : o.liveSeats = [first, second]
  noAllIn : ∀ s ∈ o.seats, s.participation ≠ .allIn
  stays : ∀ a ∈ o.river, a.action.stays = true ∧ (first.seat = a.seat ∨ second.seat = a.seat)
  side : ∀ s ∈ o.seats, s.participation ≠ .live → s.streetContribution = 0
  pot : first.streetContribution + second.streetContribution ≤ o.pot
  history : o.publicHistory ≠ []

/-- An accepted decision has passed the guard, and is accepted by the rest. -/
theorem guard_ok {bad : Prop} [Decidable bad] {text : String} {rest : Except String Unit}
    (h : (if bad then .error text else rest) = .ok ()) : ¬ bad ∧ rest = .ok () := by
  by_cases hbad : bad
  · rw [if_pos hbad] at h
    cases h
  · rw [if_neg hbad] at h
    exact ⟨hbad, h⟩

theorem streetAware_ne {o : Observation} (h : o.streetAware = true) : o.publicHistory ≠ [] := by
  intro hnil
  rw [Observation.streetAware, hnil] at h
  simp at h

theorem eligible_of_ok {d : Decision} (h : eligibility d = .ok ()) : ∃ first second, Eligible d.observation first second := by
  unfold eligibility at h
  dsimp only at h
  generalize d.observation = o at h ⊢
  obtain ⟨hcards, h⟩ := guard_ok h
  cases hlive : o.liveSeats with
  | nil =>
    rw [hlive] at h
    cases h
  | cons first rest =>
    match rest, hlive with
    | [], hlive =>
      rw [hlive] at h
      cases h
    | _ :: _ :: _, hlive =>
      rw [hlive] at h
      cases h
    | [second], hlive =>
      rw [hlive] at h
      dsimp only at h
      obtain ⟨hall, h⟩ := guard_ok h
      obtain ⟨_, h⟩ := guard_ok h
      obtain ⟨_, h⟩ := guard_ok h
      obtain ⟨hstays, h⟩ := guard_ok h
      obtain ⟨hside, h⟩ := guard_ok h
      obtain ⟨_, h⟩ := guard_ok h
      obtain ⟨_, h⟩ := guard_ok h
      obtain ⟨hpot, h⟩ := guard_ok h
      obtain ⟨_, h⟩ := guard_ok h
      obtain ⟨haware, _⟩ := guard_ok h
      have hcards : o.phase = .river ∧ o.board.length = 5 ∧ o.holeCards.length = 2 := by
        by_contra hbad
        exact hcards (by tauto)
      refine ⟨first, second, hcards.1, hcards.2.1, hcards.2.2, hlive, ?_, ?_, ?_, ?_, streetAware_ne (by simpa using haware)⟩
      · intro s hs hin
        exact hall (List.any_eq_true.mpr ⟨s, hs, by simp [hin]⟩)
      · intro a ha
        have hgood : ¬ (!a.action.stays || !([first, second].any (·.seat = a.seat))) = true := fun hbad =>
          hstays (List.any_eq_true.mpr ⟨a, ha, hbad⟩)
        simp only [Bool.or_eq_true, Bool.not_eq_true', List.any_cons, List.any_nil, Bool.or_false, Bool.or_eq_false_iff,
          decide_eq_false_iff_not, not_or, not_and_or, not_not, Bool.not_eq_false] at hgood
        exact hgood
      · intro s hs hout
        by_contra hpaid
        exact hside (List.any_eq_true.mpr ⟨s, hs, by simp [hout, hpaid]⟩)
      · omega

/-! ## Who is left -/

section left
variable {h : MultiwayHand} {p : SeatId} {o : Observation} {first second : PublicSeat} {a b : SeatId}

/-- The seats left, in their order at the table. -/
theorem Eligible.seats (he : Eligible o first second) (hs : h.Sees p o) :
    h.occupiedSeats.filter (fun q => (h.seat q).participation = .live) = [first.seat, second.seat] ∧
      first = h.publicSeat first.seat ∧ second = h.publicSeat second.seat := by
  have hlive := he.live
  rw [Observation.liveSeats, hs.seats, List.filter_map] at hlive
  have hsame : ((fun s : PublicSeat => decide (s.participation = .live)) ∘ h.publicSeat) =
      fun q => decide ((h.seat q).participation = .live) := rfl
  rw [hsame] at hlive
  have hseats := congrArg (List.map (·.seat)) hlive
  rw [List.map_map] at hseats
  have hid : ((fun s : PublicSeat => s.seat) ∘ h.publicSeat) = id := rfl
  rw [hid, List.map_id] at hseats
  refine ⟨hseats, ?_⟩
  rw [hseats] at hlive
  have hpair : [h.publicSeat first.seat, h.publicSeat second.seat] = [first, second] := hlive
  simp only [List.cons.injEq, and_true] at hpair
  exact ⟨hpair.1.symm, hpair.2.symm⟩

theorem live_iff_mem (hlen : h.seats.length = h.tableSize.get) (q : SeatId) :
    (h.seat q).participation = .live ↔ q ∈ h.occupiedSeats.filter fun q => (h.seat q).participation = .live := by
  rw [List.mem_filter, decide_eq_true_eq]
  constructor
  · intro hlive
    have hout : h.street.status q ≠ .absent := by
      rw [status_live.mpr hlive]
      exact Status.noConfusion
    exact ⟨(mem_occupiedSeats hlen).mpr (occupied_of_status hout), hlive⟩
  · exact fun hq => hq.2

theorem twoHanded_of_filter (hlen : h.seats.length = h.tableSize.get)
    (hfilter : h.occupiedSeats.filter (fun q => (h.seat q).participation = .live) = [a, b] ∨
      h.occupiedSeats.filter (fun q => (h.seat q).participation = .live) = [b, a])
    (horder : clockwiseAwardKey h.tableSize h.button a < clockwiseAwardKey h.tableSize h.button b) : h.TwoHanded ![a, b] := by
  refine ⟨?_, horder⟩
  intro q
  rw [live_iff_mem hlen, Fin.exists_fin_two]
  rcases hfilter with hf | hf <;> rw [hf] <;> simp only [List.mem_cons, List.not_mem_nil, or_false]
  · rfl
  · exact Or.comm

theorem distanceAfterButton_key (hb : h.button.val < h.tableSize.get) (q : SeatId) :
    distanceAfterButton h.tableSize.get h.button q = .done (clockwiseAwardKey h.tableSize h.button q) := by
  have hpos := h.tableSize.pos
  have hspan : (Fallible.sub (q.val + h.tableSize.get) h.button.val : Fallible String Nat) =
      .done (q.val + h.tableSize.get - h.button.val) := by
    rw [Fallible.sub, if_neg (by omega)]
  rw [distanceAfterButton, hspan]
  show (if h.tableSize.get = 0 then Fallible.panics else _) = _
  rw [if_neg (Nat.ne_of_gt hpos), clockwiseAwardKey]
  split <;> rfl

/-- `ranges` finds the seats left, the first to act after the flop out of position. -/
theorem Eligible.ranges (he : Eligible o first second) (hs : h.Sees p o) (hlen : h.seats.length = h.tableSize.get)
    (hfull : h.occupiedSeats = h.tableSize.seats) (hb : h.button.val < h.tableSize.get)
    (weightedRange : Observation → SeatId → Bool → String × List String) :
    ∃ r, o.ranges weightedRange = .done r ∧ h.TwoHanded ![r.oopSeat, r.ipSeat] := by
  obtain ⟨hfilter, hfirst, hsecond⟩ := he.seats hs
  have hnodup : first.seat ≠ second.seat := by
    have hn := (nodup_occupiedSeats h).filter fun q => decide ((h.seat q).participation = .live)
    rw [hfilter] at hn
    simpa using hn
  have hin : ∀ q ∈ [first.seat, second.seat], q.val < h.tableSize.get := by
    intro q hq
    rw [← hfilter, List.mem_filter] at hq
    exact lt_of_occupied hlen ((mem_occupiedSeats hlen).mp hq.1)
  have hkeys : clockwiseAwardKey h.tableSize h.button first.seat ≠ clockwiseAwardKey h.tableSize h.button second.seat := fun hk =>
    hnodup (clockwiseAwardKey_inj hb (hin _ List.mem_cons_self) (hin _ (List.mem_cons_of_mem _ List.mem_cons_self)) hk)
  -- nobody is all in, so who contests is who is live
  have hcontesting : (o.seats.filter PublicSeat.contesting).map (·.seat) = [first.seat, second.seat] := by
    have hsame : o.seats.filter PublicSeat.contesting = o.liveSeats := by
      refine List.filter_congr ?_
      intro s hsin
      simp [PublicSeat.contesting, he.noAllIn s hsin]
    rw [hsame, he.live]
    rfl
  have hsize : o.seats.length % 256 = h.tableSize.get := by
    have hle : h.tableSize.get ≤ 9 := h.tableSize.le_nine
    rw [hs.seats, List.length_map, hfull, TableSize.length_seats]
    omega
  have hphase : ¬ (o.phase ≠ .river ∨ o.board.length ≠ 5) := by simp [he.phase, he.board]
  have hbutton := hs.button
  unfold Observation.ranges
  rw [Fallible.refuseIf, if_neg hphase, Fallible.refuseIf, if_neg he.history, hcontesting]
  simp only [bind, Fallible.bind, hsize, hs.button, distanceAfterButton_key hb]
  by_cases hle : clockwiseAwardKey h.tableSize h.button first.seat ≤ clockwiseAwardKey h.tableSize h.button second.seat
  · have hfind : [first.seat, second.seat].find? (fun q => decide (q ≠ second.seat)) = some first.seat := by
      simp [hnodup]
    simp only [if_pos hle, hfind, Fallible.unwrap]
    exact ⟨_, rfl, twoHanded_of_filter hlen (Or.inl hfilter) (Nat.lt_of_le_of_ne hle hkeys)⟩
  · have hfind : [first.seat, second.seat].find? (fun q => decide (q ≠ first.seat)) = some second.seat := by
      simp [hnodup.symm]
    simp only [if_neg hle, hfind, Fallible.unwrap]
    exact ⟨_, rfl, twoHanded_of_filter hlen (Or.inr hfilter) (Nat.lt_of_not_le hle)⟩

/-! ## The river is a duel -/

/-- What the context is worked out of: the two seats left and their river. -/
structure Ready (h : MultiwayHand) (p : SeatId) (o : Observation) (players : Fin 2 → SeatId) : Prop where
  sees : h.Sees p o
  left : h.TwoHanded players
  cards : o.holeCards.length = 2
  mem : ∀ k, players k ∈ h.occupiedSeats
  river : o.river = h.streetHistory.map .ofRecord
  duel : Duel players h.streetHistory (fun k => h.street.bet (players k)) h.street.wager
  turn : p = players (turnAfter h.streetHistory.length)
  pot : o.pot = h.earlierPot + ((h.seat (players 0)).streetContribution + (h.seat (players 1)).streetContribution)
  fits : ∀ k, h.streetStack (players k) ≤ u32Max

variable {players : Fin 2 → SeatId} {posted : Nat}

/-- Of the two, the street is opened by the first. -/
theorem opened_by_first {k : Fin 2} (ht : h.TwoHanded players) (hopens : h.Opens) (hopener : h.opener = some (players k)) :
    k = 0 := by
  have hnear := hopens _ (players 0) hopener (status_live.mpr ((ht.live _).mpr ⟨0, rfl⟩))
  match k with
  | 0 => rfl
  | 1 => exact absurd ht.order (Nat.not_lt.mpr hnear)

theorem Eligible.twoLeft (he : Eligible o first second) (hs : h.Sees p o) (ht : h.TwoHanded players)
    (hopens : h.Opens) (hseats : ∀ q, q = first.seat ∨ q = second.seat → ∃ k, q = players k) :
    TwoLeft players h.streetHistory h.street := by
  have hphase : h.phase = .river := hs.phase ▸ he.phase
  have hrecorded : ∀ record ∈ h.streetHistory, record.action.stays = true ∧ ∃ k, record.seat = players k := by
    intro record hr
    have hin : PublicAction.ofRecord record ∈ o.river := by
      rw [streetHistory, List.mem_filter, decide_eq_true_eq] at hr
      rw [Observation.river, List.mem_filter, hs.publicHistory, decide_eq_true_eq]
      exact ⟨List.mem_map_of_mem hr.1, hr.2.trans hphase⟩
    obtain ⟨hstays, hseat⟩ := he.stays _ hin
    exact ⟨hstays, hseats _ (hseat.imp Eq.symm Eq.symm)⟩
  refine ⟨ht.injective, ?_, fun record hr => (hrecorded record hr).2, fun record hr => (hrecorded record hr).1, ?_⟩
  · intro k
    exact status_live.mpr ((ht.live _).mpr ⟨k, rfl⟩)
  · intro record hhead
    obtain ⟨k, hk⟩ := (hrecorded record (List.mem_of_mem_head? hhead)).2
    have hopener : h.opener = some (players k) := by
      rw [opener, hhead, ← hk]
      rfl
    rw [hk, opened_by_first ht hopens hopener]

/-- Nobody else has chips in on the river. -/
theorem Eligible.pot_eq (he : Eligible o first second) (hs : h.Sees p o) (hb : h.Booked) :
    o.pot = h.earlierPot + (first.streetContribution + second.streetContribution) := by
  obtain ⟨hfilter, hfirst, hsecond⟩ := he.seats hs
  have hsplit : (h.occupiedSeats.map fun q => (h.seat q).handContribution) =
      h.occupiedSeats.map fun q =>
        ((h.seat q).handContribution - (h.seat q).streetContribution) + (h.seat q).streetContribution := by
    refine List.map_congr_left fun q _ => ?_
    have := hb.street_le q
    omega
  have hside : ∀ q ∈ h.occupiedSeats, (h.seat q).participation ≠ .live → (h.seat q).streetContribution = 0 := by
    intro q hq hout
    refine he.side (h.publicSeat q) ?_ hout
    rw [hs.seats]
    exact List.mem_map_of_mem hq
  have hstreet : (h.occupiedSeats.map fun q => (h.seat q).streetContribution).sum =
      first.streetContribution + second.streetContribution := by
    have hlive : (h.occupiedSeats.map fun q => (h.seat q).streetContribution).sum =
        ((h.occupiedSeats.filter fun q => (h.seat q).participation = .live).map fun q => (h.seat q).streetContribution).sum := by
      generalize h.occupiedSeats = l at hside
      induction l with
      | nil => rfl
      | cons q l ih =>
        have ih := ih fun q' hq' => hside q' (List.mem_cons_of_mem _ hq')
        by_cases hq : (h.seat q).participation = .live
        · rw [List.filter_cons_of_pos (by simpa using hq), List.map_cons, List.map_cons, List.sum_cons, List.sum_cons, ih]
        · rw [List.filter_cons_of_neg (by simpa using hq), List.map_cons, List.sum_cons, ih,
            hside q List.mem_cons_self hq, Nat.zero_add]
    rw [hlive, hfilter, hfirst, hsecond]
    simp [publicSeat]
  rw [hs.pot, sumSeats, earlierPot, sumSeats, hsplit, List.sum_map_add, hstreet]

theorem Eligible.ready (he : Eligible o first second) (hs : h.Sees p o) (ht : h.TwoHanded players) (hp : h.Playing posted)
    (hr : h.Recounted) : Ready h p o players := by
  have hphase : h.phase = .river := hs.phase ▸ he.phase
  obtain ⟨hfilter, hfirst, hsecond⟩ := he.seats hs
  have hlive : ∀ q, (h.seat q).participation = .live ↔ q = first.seat ∨ q = second.seat := by
    intro q
    rw [live_iff_mem hp.booked.length, hfilter]
    simp
  have htwo := he.twoLeft hs ht hr.opens fun q hq => (ht.live q).mp ((hlive q).mpr hq)
  obtain ⟨s₀, hfresh, hzero, hrecounts⟩ := hr.street
  have hdueling := hrecounts.dueling hfresh hzero hp.blind htwo
  have hasked := (needsAction_iff hp.sound).mp (hp.needs hs.toAct)
  obtain ⟨k, hk⟩ := (ht.live p).mp (status_live.mp hasked.1)
  have hfirstTurn : h.streetHistory = [] → k = 0 := by
    intro hnil
    refine opened_by_first ht hr.opens ?_
    rw [opener, hnil, ← hk]
    exact hs.toAct
  have hpot := he.pot_eq hs hp.booked
  have hbets : first.streetContribution + second.streetContribution =
      (h.seat (players 0)).streetContribution + (h.seat (players 1)).streetContribution := by
    have hfirst' := congrArg PublicSeat.streetContribution hfirst
    have hsecond' := congrArg PublicSeat.streetContribution hsecond
    simp only [publicSeat] at hfirst' hsecond'
    have hne : players 0 ≠ players 1 := fun he => Fin.zero_ne_one (ht.injective he)
    rw [hfirst', hsecond']
    -- the two are the same seats, in one order or the other
    rcases (hlive _).mp ((ht.live _).mpr ⟨0, rfl⟩) with h0 | h0 <;>
      rcases (hlive _).mp ((ht.live _).mpr ⟨1, rfl⟩) with h1 | h1
    · exact absurd (h0.trans h1.symm) hne
    · rw [h0, h1]
    · rw [h0, h1, Nat.add_comm]
    · exact absurd (h0.trans h1.symm) hne
  refine {
    sees := hs, left := ht, cards := he.cards, mem := ?_, river := ?_, duel := hdueling.duel, turn := ?_, pot := ?_, fits := ?_ }
  · intro j
    refine (mem_occupiedSeats hp.booked.length).mpr (occupied_of_status ?_)
    rw [htwo.live j]
    exact Status.noConfusion
  · rw [Observation.river, hs.publicHistory, List.filter_map, streetHistory, hphase]
    rfl
  · rw [hk] at hasked ⊢
    rw [hdueling.turn_of_asked hasked hfirstTurn]
  · rw [hpot, hbets]
  · intro j
    have := hp.booked.street_fits (players j)
    rw [streetStack, Nat.add_comm]
    exact this

end left

/-! ## The context -/

/-- The seats or the stacks of the two players are refused. -/
def seatErrors : List ContextError :=
  [.message "Missing OOP seat", .message "Missing IP seat", .message "Range positions do not match the two live players",
    .message "OOP stack overflow", .message "IP stack overflow"]

/-- The amount an action names. -/
def SolverAction.amount : SolverAction → Option Int
  | .bet v | .raise v | .allIn v => some v
  | .fold | .check | .call => none

/-- The amount an action of the hand lifts the wager to. -/
def target : Action → Option Int
  | .bet v | .raise v | .allIn v => some v
  | .fold | .check | .call _ => none

/-- The tree of this effective stack has the action under its own amount. -/
def Representable (effectiveStack wager : Nat) : Action → Prop
  | .fold | .check | .call _ => True
  | .bet v | .raise v => v ≤ effectiveStack
  | .allIn v => v = effectiveStack ∧ wager < v

/-- The effective stack covers every wager of the street. -/
def Covers (h : MultiwayHand) (players : Fin 2 → SeatId) : Prop :=
  ∀ record ∈ h.streetHistory, record.wagerAfter ≤ h.effectiveStack players

/-- The context is of this hand, at the turn of `p`. -/
structure Context.Agrees {x : PostflopSolver} (ctx : Context x) (h : MultiwayHand) (p : SeatId) (players : Fin 2 → SeatId)
    (action : Action) :
    Prop where
  rootPot : ctx.rootPot = h.earlierPot
  effectiveStack : ctx.effectiveStack = h.effectiveStack players
  heroPlayer : players ctx.heroPlayer = p
  line : TreeNode.line ctx.effectiveStack ctx.history =
    some ⟨fun k => (h.seat (players k)).streetContribution, h.currentWager, ctx.heroPlayer⟩
  accepted : ctx.accepted.amount = target action

/-- The seats and stacks are never what is wrong, and within the tree neither the history nor the action is. -/
structure Warranted (h : MultiwayHand) (players : Fin 2 → SeatId) (action : Action) (error : ContextError) : Prop where
  seats : error ∉ seatErrors
  history : Covers h players → error ∉ historyErrors
  size : Covers h players → Representable (h.effectiveStack players) h.currentWager action → error ≠ sizeError

section context
variable {x : PostflopSolver} {h : MultiwayHand} {p q : SeatId} {o : Observation} {players : Fin 2 → SeatId} {action : Action}
  {k : Fin 2} {r : LiveRanges} {legal : MultiwayLegalActions} {eff : Nat}

/-! ### One step at a time -/

theorem warranted_of_other {error : ContextError} (hother : error ∉ sizeError :: seatErrors ++ historyErrors) :
    Warranted h players action error := by
  simp only [List.cons_append, List.mem_cons, List.mem_append, not_or] at hother
  exact ⟨hother.2.1, fun _ => hother.2.2, fun _ _ => hother.1⟩

theorem meets_refuse {bad : Prop} [Decidable bad] {text : String}
    (hother : .message text ∉ sizeError :: seatErrors ++ historyErrors) :
    (refuse bad text).Meets (fun _ => ¬ bad) (Warranted h players action) :=
  Fallible.meets_refuseIf fun _ => warranted_of_other hother

theorem meets_package {α : Type} (result : Except String α) :
    (fromPackage result).Meets (fun _ => True) (Warranted h players action) := by
  refine Fallible.meets_lift (fun _ _ => trivial) ?_
  intro error herror
  cases result with
  | ok value => cases herror
  | error text =>
    obtain rfl := Except.error.inj herror
    exact warranted_of_other (by simp [sizeError, seatErrors, historyErrors])

theorem meets_seated (hs : h.Sees p o) (hq : q ∈ h.occupiedSeats) (text : String) :
    (o.seated q text).Meets (· = h.publicSeat q) (Warranted h players action) := by
  rw [Observation.seated, hs.find hq]
  rfl

theorem meets_riverStack {s : PublicSeat} (hfits : s.stack + s.streetContribution ≤ u32Max) (text : String) :
    (s.riverStack text).Meets (· = s.stack + s.streetContribution) (Warranted h players action) := by
  have hok : ¬ ¬ fitsU32 (s.stack + s.streetContribution) = true := by
    rw [not_not, fitsU32, decide_eq_true_eq]
    exact hfits
  rw [PublicSeat.riverStack, refuse, Fallible.refuseIf, if_neg hok]
  rfl

theorem meets_readCards (hcards : o.holeCards.length = 2) :
    (o.readCards x r k).Meets (fun _ => True) (Warranted h players action) := by
  have hfirst : (o.holeCards[0]?).isSome = true := by simp [hcards]
  have hsecond : (o.holeCards[1]?).isSome = true := by simp [hcards]
  unfold Observation.readCards
  refine (meets_package _).bind fun board _ => ?_
  refine (meets_refuse (by decide)).bind fun _ _ => ?_
  refine (Fallible.meets_unwrap hfirst fun _ _ => trivial).bind fun first _ => ?_
  refine (meets_package _).bind fun firstCard _ => ?_
  refine (Fallible.meets_unwrap hsecond fun _ _ => trivial).bind fun second _ => ?_
  refine (meets_package _).bind fun secondCard _ => ?_
  refine (meets_refuse (by decide)).bind fun _ _ => ?_
  refine (meets_package _).bind fun oop _ => ?_
  refine (meets_package _).bind fun ip _ => ?_
  refine (meets_refuse (by decide)).bind fun _ _ => ?_
  refine (meets_refuse (by decide)).bind fun _ _ => ?_
  refine (meets_refuse (by decide)).bind fun _ _ => ?_
  refine (meets_refuse (by decide)).bind fun _ _ => ?_
  exact Fallible.meets_pure trivial

/-! ### The accepted action -/

/-- Nothing is lost of the amount. -/
theorem mapAction_amount {mapped : SolverAction} (heff : eff ≤ 100000) {wager : Nat}
    (h : mapAction action wager eff = .ok mapped) :
    mapped.amount = target action := by
  have hint : ∀ v, v ≤ eff → some (asI32 v) = some ((v : Nat) : Int) := fun v hv => congrArg some (asI32_eq (by omega))
  unfold mapAction at h
  cases action with
  | fold | check | call n =>
    obtain rfl := Except.ok.inj h
    rfl
  | bet n | raise n =>
    dsimp only at h
    split at h
    · rename_i hall
      obtain rfl := Except.ok.inj h
      exact hint n (Nat.le_of_eq hall.2)
    split at h
    · rename_i hless
      obtain rfl := Except.ok.inj h
      exact hint n (Nat.le_of_lt hless.2)
    · cases h
  | allIn n =>
    dsimp only at h
    split at h
    · rename_i hall
      obtain rfl := Except.ok.inj h
      exact hint n (Nat.le_of_eq hall.1)
    · cases h

/-- What the hand takes and the tree has is mapped. -/
theorem mapAction_offered (ha : h.Acting p legal) (hoffered : Offered legal h.currentWager action)
    (hrep : Representable eff h.currentWager action) : ∃ mapped, mapAction action h.currentWager eff = .ok mapped := by
  cases action with
  | fold | check | call n => exact ⟨_, rfl⟩
  | bet n =>
    obtain ⟨least, hleast, _⟩ := hoffered
    exact mapAction_within (Or.inl ⟨rfl, (ha.menu.minBetTo least hleast).1⟩) hrep
  | raise n =>
    obtain ⟨_, least, hleast, _⟩ := hoffered
    exact mapAction_within (Or.inr ⟨rfl, minRaiseTo_wagered ha.offered hleast⟩) hrep
  | allIn n =>
    have hall : n = eff ∧ h.currentWager < n := hrep
    exact ⟨_, by rw [mapAction, if_pos hall]⟩

/-! ### The river's records -/

/-- The replay is a line of the tree; where the effective stack covers the river it has the hand's own figures. -/
structure Replayed (h : MultiwayHand) (players : Fin 2 → SeatId) (replay : Replay) : Prop where
  line : TreeNode.line (h.effectiveStack players) replay.history = some (replay.node (turnAfter h.streetHistory.length))
  covered : Covers h players → replay.contributions = (fun k => h.street.bet (players k)) ∧ replay.wager = h.currentWager

theorem Ready.replay (hr : Ready h p o players) (heff : h.effectiveStack players ≤ 100000) :
    (Fallible.lift (replayRiver (h.effectiveStack players) players o.river)).Meets (Replayed h players)
      (Warranted h players action) := by
  have hduel : Covers h players → ∃ replay, replayRiver (h.effectiveStack players) players o.river = .ok replay ∧
      replay.contributions = (fun k => h.street.bet (players k)) ∧ replay.wager = h.currentWager := by
    intro hcovers
    rw [hr.river]
    exact replayRiver_duel hr.duel hcovers
  refine Fallible.meets_lift ?_ ?_
  · intro replay hreplay
    refine ⟨?_, ?_⟩
    · have hline := replayRiver_line heff hreplay
      rw [hr.river, List.length_map] at hline
      exact hline
    · intro hcovers
      obtain ⟨other, hother, hfigures⟩ := hduel hcovers
      rw [Except.ok.inj (hreplay.symm.trans hother)]
      exact hfigures
  · intro error herror
    have hmem := replayRiver_refused herror
    -- a river that is covered is not refused
    have hnever : ¬ Covers h players := by
      intro hcovers
      obtain ⟨_, hok, _⟩ := hduel hcovers
      rw [herror] at hok
      cases hok
    refine ⟨?_, fun hcovers => absurd hcovers hnever, fun hcovers => absurd hcovers hnever⟩
    have hapart : ∀ e ∈ sizeError :: historyErrors, e ∉ seatErrors := by decide
    exact hapart error hmem

/-- Other figures are refused only of a river that is not covered. -/
theorem Replayed.figures {replay : Replay} (hreplay : Replayed h players replay) {wager : Nat} (hsame : wager = h.currentWager)
    (hbad : replay.contributions ≠ (fun k => h.street.bet (players k)) ∨ replay.wager ≠ wager) :
    Warranted h players action (.message "River history does not reproduce current contributions") := by
  have hnever : ¬ Covers h players := by
    intro hcovers
    obtain ⟨hcontributions, hwager⟩ := hreplay.covered hcovers
    rcases hbad with hother | hother
    · exact hother hcontributions
    · exact hother (hwager.trans hsame.symm)
  exact ⟨by decide, fun hcovers => absurd hcovers hnever, fun hcovers => absurd hcovers hnever⟩

/-! ### The whole -/

theorem Ready.heroPlayer (hr : Ready h p o players) :
    (if o.actor = (h.publicSeat (players 0)).seat then (0 : Fin 2) else 1) = turnAfter h.streetHistory.length := by
  rw [hr.sees.actor]
  by_cases hp : p = (h.publicSeat (players 0)).seat
  · rw [if_pos hp]
    exact hr.left.injective (hp.symm.trans hr.turn)
  · rw [if_neg hp]
    have hone : turnAfter h.streetHistory.length ≠ 0 := fun hzero => hp (hzero ▸ hr.turn)
    omega

/-- The range positions are two seats, both live. -/
theorem positions_match (ht : h.TwoHanded players) : ¬ ((h.publicSeat (players 0)).seat = (h.publicSeat (players 1)).seat ∨
    (h.publicSeat (players 0)).participation ≠ .live ∨ (h.publicSeat (players 1)).participation ≠ .live) := by
  rintro (he | hout | hout)
  · exact Fin.zero_ne_one (ht.injective he)
  · exact hout ((ht.live _).mpr ⟨0, rfl⟩)
  · exact hout ((ht.live _).mpr ⟨1, rfl⟩)

theorem Ready.context (hr : Ready h p o players) (hplayers : players = ![r.oopSeat, r.ipSeat]) (ha : h.Acting p legal)
    (hoffered : Offered legal h.currentWager action) (version : Nat) (facts : Facts) :
    (context x ⟨version, o, action, facts⟩ r).Meets (·.Agrees h p players action) (Warranted h players action) := by
  have h0 : players 0 = r.oopSeat := by rw [hplayers]; rfl
  have h1 : players 1 = r.ipSeat := by rw [hplayers]; rfl
  have hfits : ∀ k, (h.publicSeat (players k)).stack + (h.publicSeat (players k)).streetContribution ≤ u32Max := hr.fits
  unfold Trainer.context
  dsimp only
  rw [← h0, ← h1]
  refine (meets_refuse (by decide)).bind fun _ _ => ?_
  refine (meets_seated hr.sees (hr.mem 0) _).bind fun oop hoop => ?_
  subst hoop
  refine (meets_seated hr.sees (hr.mem 1) _).bind fun ip hip => ?_
  subst hip
  refine (Fallible.meets_refuseIf fun hbad => absurd hbad (positions_match hr.left)).bind fun _ _ => ?_
  have hpot : o.pot = h.earlierPot +
      ((h.publicSeat (players 0)).streetContribution + (h.publicSeat (players 1)).streetContribution) := hr.pot
  refine (Fallible.meets_sub (by omega)).bind fun rest hrest => ?_
  refine (Fallible.meets_sub (by omega)).bind fun rootPot hroot => ?_
  obtain rfl : rootPot = h.earlierPot := by omega
  refine (meets_refuse (by decide)).bind fun _ _ => ?_
  refine (meets_riverStack (hfits 0) _).bind fun totalOop hoop => ?_
  refine (meets_riverStack (hfits 1) _).bind fun totalIp hip => ?_
  obtain rfl : totalOop = h.streetStack (players 0) := hoop
  obtain rfl : totalIp = h.streetStack (players 1) := hip
  refine (meets_refuse (by decide)).bind fun _ hlimits => ?_
  have heff : h.effectiveStack players ≤ 100000 ∧ h.earlierPot ≤ 1000000 := by
    simp only [not_or, Nat.not_lt] at hlimits
    exact hlimits.2
  refine (meets_readCards hr.cards).bind fun cards _ => ?_
  have hseats : ![(h.publicSeat (players 0)).seat, (h.publicSeat (players 1)).seat] = players := by
    funext k
    match k with
    | 0 => rfl
    | 1 => rfl
  have hbets : ![(h.publicSeat (players 0)).streetContribution, (h.publicSeat (players 1)).streetContribution] =
      fun k => h.street.bet (players k) := by
    funext k
    match k with
    | 0 => rfl
    | 1 => rfl
  have hlen : o.river.length = h.streetHistory.length := by rw [hr.river, List.length_map]
  rw [hseats, hbets]
  refine (hr.replay heff.1).bind fun replay hreplay => ?_
  refine (Fallible.meets_refuseIf (hreplay.figures hr.sees.wager)).bind fun _ hsame => ?_
  obtain ⟨hcontributions, hwager⟩ : replay.contributions = (fun k => h.street.bet (players k)) ∧ replay.wager = o.wager := by
    simpa only [not_or, ne_eq, not_not] using hsame
  have hactor : ¬ o.actor ≠ players (turnAfter o.river.length) := by
    rw [hlen, ← hr.turn, hr.sees.actor]
    exact not_not_intro rfl
  refine (Fallible.meets_refuseIf fun hbad => absurd hbad hactor).bind fun _ _ => ?_
  have hwager : replay.wager = h.currentWager := hwager.trans hr.sees.wager
  rw [hwager]
  refine (Fallible.meets_lift (fun _ hmapped => hmapped) (fun error herror => ?_)).bind fun accepted haccepted => ?_
  · rw [mapAction_refused herror]
    refine ⟨by decide, fun _ => by decide, fun _ hrep => ?_⟩
    obtain ⟨_, hok⟩ := mapAction_offered ha hoffered hrep
    have herror : mapAction action h.currentWager (h.effectiveStack players) = .error error := herror
    rw [hok] at herror
    cases herror
  · have hall : (asI32 (min (h.streetStack (players 0)) (h.streetStack (players 1)))) = h.effectiveStack players :=
      asI32_eq (Nat.le_trans heff.1 (by decide))
    refine Fallible.meets_pure ⟨asI32_eq heff.2, hall, ?_, ?_, mapAction_amount heff.1 haccepted⟩
    · rw [hr.heroPlayer, ← hr.turn]
    · rw [hr.heroPlayer]
      show TreeNode.line (asI32 (min (h.streetStack (players 0)) (h.streetStack (players 1)))) replay.history = _
      rw [hall, hreplay.line, Replay.node, hcontributions, hwager]
      rfl

end context

/-! ## Sessions -/

/-- What the solver is given of a decision of `p` in this hand. -/
structure Reviews (x : PostflopSolver) (h : MultiwayHand) (p : SeatId) (d : Decision) (r : LiveRanges) : Prop where
  left : h.TwoHanded ![r.oopSeat, r.ipSeat]
  context : (context x d r).Meets (·.Agrees h p ![r.oopSeat, r.ipSeat] d.acceptedAction)
    (Warranted h ![r.oopSeat, r.ipSeat] d.acceptedAction)

section claim
variable {settings : Settings} {s s' : Session} {deck : Shuffle} {id : String} {localFeedback : Decision → Feedback}
  {action : Action}
  {d : Decision}

/-- Every decision of a session that is let through is the solver's to replay: the two seats left are found in
    the order they act, and the context agrees with the hand the decision was made in. -/
theorem solver_replays (hnew : Session.new settings deck id = .ok s) (ops : List SessionOp)
    (hsubmit : (s.run localFeedback ops).submit localFeedback action = (.ok d, s')) (heligible : eligibility d = .ok ())
    (x : PostflopSolver) (weightedRange : Observation → SeatId → Bool → String × List String) :
    ∃ r, d.observation.ranges weightedRange = .done r ∧ Reviews x (s.run localFeedback ops).hand hero d r := by
  have hseated : Seated settings (s.run localFeedback ops) := (new_seated hnew).2.run ops
  generalize s.run localFeedback ops = s at hseated hsubmit
  rcases submit_cases localFeedback s action with ⟨error, he⟩ | ⟨o, _, ho, hv, he⟩
  · rw [he] at hsubmit
    cases hsubmit
  obtain ⟨hd, _⟩ := Prod.mk.inj (he.symm.trans hsubmit)
  obtain rfl := Except.ok.inj hd
  have hturn := (validateCommand_ok hv).1
  have hto := hturn.toAct
  cases hseated.rests.stands with
  | between hb =>
    rw [hb.handOver.toAct] at hto
    cases hto
  | @plays c stack start commands hp _ =>
    obtain ⟨_, hplay⟩ := hp.stage.playing_of_toAct hto
    obtain ⟨legal, ha⟩ := hplay.acting hto
    have hsees : s.hand.Sees hero o := observation_sees ho ha.turn.accepts
    obtain ⟨first, second, heligible⟩ := eligible_of_ok heligible
    have heligible : Eligible o first second := heligible
    have htable := hseated.rests.table
    obtain ⟨r, hr, hleft⟩ := heligible.ranges hsees htable.length htable.seats_eq htable.button weightedRange
    have hknows := hp.starts.recounted_run (commands.map .command)
    rw [← hp.hand] at hknows
    have hriver : s.hand.phase ≠ .preflop := by
      rw [← hsees.phase, heligible.phase]
      exact MultiwayPhase.noConfusion
    have hrecounted := hknows (by rw [hto]; exact Option.some_ne_none _) hriver
    have hready := heligible.ready hsees hleft hplay hrecounted
    exact ⟨r, hr, hleft, hready.context rfl ha (ha.offered_of_valid hv) 1 (Facts.calculate o)⟩

/-- The package's numbering of the cards. -/
def cardNumber (text : List Char) : Option (Fin 52) :=
  let suits : List Suit := [.clubs, .diamonds, .hearts, .spades]
  let card (c : Fin 52) : Card := ⟨Rank.all.getD (c.val / 4) .two, suits.getD (c.val % 4) .clubs⟩
  (List.finRange 52).find? fun c => (card c).ascii.toList = text

/-- A hand of a range, whatever its weight. -/
def readCombo : List Char → Option (Fin 52 × Fin 52)
  | a :: b :: c :: d :: ':' :: _ => (cardNumber [a, b]).bind fun first => (cardNumber [c, d]).map fun second => (first, second)
  | _ => none

/-- A package whose ranges are the hands they list. -/
def listedHands : PostflopSolver where
  Range := List (Fin 52 × Fin 52)
  cardFromStr text := ((cardNumber text.toList).map Except.ok).getD (.error "Invalid card")
  parseRange text := (((text.toList.splitOn ',').mapM readCombo).map Except.ok).getD (.error "Invalid range")
  weightless range a b := !(range.contains (a, b) || range.contains (b, a))
  getHands range mask := range.filter fun hand => !mask.testBit hand.1.val && !mask.testBit hand.2.val

/-- Two hands for each seat, the hero's own among them. -/
def twoEach (_ : Observation) (_ : SeatId) (inPosition : Bool) : String × List String :=
  if inPosition then ("AcAd:1.0000,3s5s:0.2500", ["AcAd (100%)", "3s5s (25%)"])
  else ("AhKh:1.0000,QdQc:0.5000", ["AhKh (100%)", "QdQc (50%)"])

/-- Checked down to the river, where the other seat checks, the hero bets and is raised. -/
def raisedRiver : List SessionOp :=
  let calm : Draws := ⟨false, false, false⟩
  [.submit (.call 1), .continueHand, .stepBot calm, .stepBot calm, .submit .check, .continueHand, .stepBot calm, .submit .check,
    .continueHand, .stepBot calm, .submit (.bet 4), .continueHand, .stepBot ⟨false, true, true⟩]

/-- The hero's call of the raise. -/
theorem solver_replays_raised : ∃ s s' d, Session.new headsUp newDeck "s" = .ok s ∧
    (s.run uncertain raisedRiver).submit uncertain (.call 5) = (.ok d, s') ∧ eligibility d = .ok () ∧
      ∃ r, d.observation.ranges twoEach = .done r ∧
        Reviews listedHands (s.run uncertain raisedRiver).hand hero d r := by
  have hrun : ((Session.new headsUp newDeck "s").toOption.bind fun s =>
      ((s.run uncertain raisedRiver).submit uncertain (.call 5)).1.toOption.map fun d => (eligibility d).isOk) = some true := by
    decide +kernel
  obtain ⟨s, hnew⟩ := headsUp_opens
  rw [hnew] at hrun
  rcases hsubmit : (s.run uncertain raisedRiver).submit uncertain (.call 5) with ⟨result, s'⟩
  cases result with
  | error e =>
    rw [show (Except.ok s : Except SessionError Session).toOption = some s from rfl, Option.bind_some, hsubmit] at hrun
    cases hrun
  | ok d =>
    rw [show (Except.ok s : Except SessionError Session).toOption = some s from rfl, Option.bind_some, hsubmit] at hrun
    have heligible : eligibility d = .ok () := by
      have hok : (eligibility d).isOk = true := Option.some.inj hrun
      cases he : eligibility d with
      | ok u => rfl
      | error text =>
        rw [he] at hok
        cases hok
    exact ⟨s, s', d, hnew, hsubmit, heligible, solver_replays hnew raisedRiver hsubmit heligible listedHands _⟩

example : ((Session.new headsUp newDeck "s").toOption.bind fun s =>
    ((s.run uncertain raisedRiver).submit uncertain (.call 5)).1.toOption.map fun d =>
      match d.observation.ranges twoEach with
      | .done r =>
        match context listedHands d r with
        | .done ctx => (ctx.rootPot, ctx.effectiveStack, ctx.history, ctx.accepted)
        | _ => (0, 0, [], .fold)
      | _ => (0, 0, [], .fold)) = some (4, 198, [.check, .bet 4, .raise 9], .call) := by decide +kernel

end claim

end Trainer

end OpenFelt
