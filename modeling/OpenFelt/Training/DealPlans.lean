/-
  OpenFelt.Training.DealPlans — plans from assigned cards (`src/training/deal.rs`).

  Translation. A seeded plan is a shuffle of the environment's, `review`. The set of
  occupied seats is a `Finset` and the assignments are an `OrdMap`; its `Index` stops at a
  missing seat, here `none`, and the keys were compared before (`fromAssignments_some`).

  Proved: a plan is an order of the 52 cards; every hand built from assigned cards gives
  each seat its two and opens the assigned board in order, whatever is called; and another
  runout leaves the private cards of every seat as they were, or is refused because one of
  its cards is dealt already (`plans_deal`).
-/

import OpenFelt.Game.DealOrder
import OpenFelt.Training.Play
import Mathlib.Data.Finset.Basic

namespace OpenFelt

open MultiwayHand (HandStarts InOrder BoardFits)

/-! ## Plans -/

/-- `ShuffleSource::deterministic_for_review`, on a new deck. -/
abbrev ReviewShuffle := Nat → {deck : Deck // deck.Shuffled}

namespace DealPlanV1

def new (cards : List Card) : Except DealPlanError DealPlanV1 :=
  let plan : DealPlanV1 := ⟨dealPlanVersion, cards⟩
  plan.validate.map fun () => plan

def seeded (review : ReviewShuffle) (seed : Nat) : DealPlanV1 := ⟨dealPlanVersion, ((review seed).1.dealN 52).1⟩

end DealPlanV1

/-- The loop of `validate_occupied`; `seats` are those before. -/
def collectSeats (tableSize : TableSize) : Finset SeatId → List SeatId → Except DealPlanError (Finset SeatId)
  | seats, [] => .ok seats
  | seats, seat :: rest =>
    if !tableSize.contains seat then .error (.seatOutsideTable seat)
    else if seat ∈ seats then .error (.duplicateSeat seat)
    else collectSeats tableSize (insert seat seats) rest

def validateOccupied (tableSize : TableSize) (button : SeatId) (occupied : List SeatId) :
    Except DealPlanError (Finset SeatId) :=
  if ¬(2 ≤ occupied.length ∧ occupied.length ≤ tableSize.get) then .error (.invalidOccupancy occupied.length)
  else
    match collectSeats tableSize ∅ occupied with
    | .error error => .error error
    | .ok seats => if button ∈ seats then .ok seats else .error (.buttonNotOccupied button)

/-- `complete_from_prefix`. -/
def completeFrom (dealt filler : List Card) : Except DealPlanError DealPlanV1 :=
  match ensureUnique [] dealt with
  | .error error => .error error
  | .ok () => DealPlanV1.new (dealt ++ filler.filter fun card => !dealt.contains card)

namespace DealPlanV1

/-- The seats clockwise of the button, which is last. -/
def clockwise (tableSize : TableSize) (button : SeatId) (occupied : Finset SeatId) : List SeatId :=
  (clockwiseFrom tableSize button 1 tableSize.get).filter fun seat => seat ∈ occupied

/-- `none` is the lookup that stops. -/
def fromAssignments (review : ReviewShuffle) (tableSize : TableSize) (button : SeatId) (occupied : List SeatId)
    (holeCards : OrdMap SeatId (Card × Card)) (board : Vector Card 5) (fillerSeed : Nat) :
    Option (Except DealPlanError DealPlanV1) :=
  match validateOccupied tableSize button occupied with
  | .error error => some (.error error)
  | .ok occupied =>
    if holeCards.keys.toFinset ≠ occupied then some (.error .holeAssignmentMismatch)
    else do
      let pairs ← (clockwise tableSize button occupied).mapM holeCards.find?
      return completeFrom (pairs.map (·.1) ++ pairs.map (·.2) ++ board.toList) (seeded review fillerSeed).cards

def branchPublicRunout (plan : DealPlanV1) (dealtSeatCount : Nat) (board : Vector Card 5) : Except DealPlanError DealPlanV1 :=
  match plan.validate with
  | .error error => .error error
  | .ok () =>
    if ¬(2 ≤ dealtSeatCount ∧ dealtSeatCount ≤ 9) then .error (.invalidRunoutSeatCount dealtSeatCount)
    else completeFrom (plan.cards.take (dealtSeatCount * 2) ++ board.toList) plan.cards

/-! ## Orders of the 52 cards -/

section plans
variable {plan branched : DealPlanV1} {cards dealt filler : List Card}

theorem validate_perm (h : plan.validate = .ok ()) : plan.cards.Perm Deck.new.cards ∧ plan.intoDeck = .ok ⟨plan.cards, 0⟩ := by
  have hdeck : plan.intoDeck = .ok ⟨plan.cards, 0⟩ := by rw [intoDeck, h]; rfl
  exact ⟨(intoDeck_shuffled hdeck).1, hdeck⟩

theorem new_ok (h : new cards = .ok plan) : plan.cards = cards ∧ plan.validate = .ok () := by
  unfold new at h
  dsimp only at h
  cases hv : validate ⟨dealPlanVersion, cards⟩ with
  | error e => rw [hv] at h; cases h
  | ok u => rw [hv] at h; cases h; exact ⟨rfl, hv⟩

theorem ensureUnique_append {seen : List Card} (rest : List Card) (hn : cards.Nodup) (hnew : ∀ card ∈ cards, card ∉ seen) :
    ensureUnique seen (cards ++ rest) = ensureUnique (cards.reverse ++ seen) rest := by
  induction cards generalizing seen with
  | nil => rfl
  | cons card cards ih =>
    obtain ⟨hcard, hn⟩ := List.nodup_cons.mp hn
    have hfresh : seen.contains card = false := by
      simpa using hnew card List.mem_cons_self
    rw [List.cons_append, ensureUnique, if_neg (by rw [hfresh]; exact Bool.false_ne_true), ih hn, List.reverse_cons,
      List.append_assoc]
    · rfl
    · intro x hx hseen
      rcases List.mem_cons.mp hseen with rfl | hseen
      · exact hcard hx
      · exact hnew x (List.mem_cons_of_mem _ hx) hseen

/-- Distinct cards pass. -/
theorem ensureUnique_iff {seen : List Card} : ensureUnique seen cards = .ok () ↔ cards.Nodup ∧ ∀ card ∈ cards, card ∉ seen := by
  refine ⟨ensureUnique_ok, fun ⟨hn, hnew⟩ => ?_⟩
  have happend := ensureUnique_append [] hn hnew
  rw [List.append_nil] at happend
  rw [happend]
  rfl

theorem ensureUnique_error {seen : List Card} {error : DealPlanError} (h : ensureUnique seen cards = .error error) :
    ∃ card ∈ cards, error = .duplicateCard card := by
  induction cards generalizing seen with
  | nil => cases h
  | cons card cards ih =>
    unfold ensureUnique at h
    split at h
    · exact ⟨card, List.mem_cons_self, (Except.error.inj h).symm⟩
    · obtain ⟨x, hx, he⟩ := ih h
      exact ⟨x, List.mem_cons_of_mem _ hx, he⟩

/-- A full deck fills the rest, once each. -/
theorem complete_perm (hn : dealt.Nodup) (hf : filler.Perm Deck.new.cards) :
    (dealt ++ filler.filter fun card => !dealt.contains card).Perm Deck.new.cards := by
  refine (List.perm_ext_iff_of_nodup ?_ Deck.new_nodup).mpr ?_
  · refine List.Nodup.append hn ((hf.nodup_iff.mpr Deck.new_nodup).filter _) ?_
    intro card hdealt hrest
    have hnew := (List.mem_filter.mp hrest).2
    simp [hdealt] at hnew
  · intro card
    refine ⟨fun _ => Deck.mem_new card, fun hcard => ?_⟩
    by_cases hdealt : card ∈ dealt
    · exact List.mem_append_left _ hdealt
    · exact List.mem_append_right _ (List.mem_filter.mpr ⟨hf.mem_iff.mpr hcard, by simpa using hdealt⟩)

theorem completeFrom_ok (h : completeFrom dealt filler = .ok plan) : dealt.Nodup ∧ plan.validate = .ok () ∧
    plan.cards = dealt ++ filler.filter fun card => !dealt.contains card := by
  unfold completeFrom at h
  split at h
  · cases h
  · rename_i hunique
    obtain ⟨hcards, hvalid⟩ := new_ok h
    exact ⟨(ensureUnique_ok hunique).1, hvalid, hcards⟩

/-- Exactly distinct cards can be completed. -/
theorem completeFrom_cases (dealt : List Card) (hf : filler.Perm Deck.new.cards) :
    (dealt.Nodup ∧ ∃ plan, completeFrom dealt filler = .ok plan) ∨
      (¬dealt.Nodup ∧ ∃ error, completeFrom dealt filler = .error error ∧ ensureUnique [] dealt = .error error) := by
  cases hunique : ensureUnique [] dealt with
  | error error =>
    refine Or.inr ⟨fun hn => ?_, error, by rw [completeFrom, hunique], rfl⟩
    rw [ensureUnique_iff.mpr ⟨hn, fun _ _ => List.not_mem_nil⟩] at hunique
    cases hunique
  | ok u =>
    have hn := (ensureUnique_ok hunique).1
    have hperm := complete_perm hn hf
    refine Or.inl ⟨hn, ⟨dealPlanVersion, dealt ++ filler.filter fun card => !dealt.contains card⟩, ?_⟩
    have hvalid : validate ⟨dealPlanVersion, dealt ++ filler.filter fun card => !dealt.contains card⟩ = .ok () := by
      have hcount := hperm.length_eq
      rw [Deck.new_length] at hcount
      rw [validate, if_neg (not_not.mpr rfl), if_neg (not_not.mpr hcount)]
      exact ensureUnique_iff.mpr ⟨hperm.nodup_iff.mpr Deck.new_nodup, fun _ _ => List.not_mem_nil⟩
    rw [completeFrom, hunique]
    show (validate _).map _ = _
    rw [hvalid]
    rfl

end plans

/-! ## The hands of a plan -/

/-- A hand built from a plan, whatever the pace of its showdown. -/
def HandFrom (plan : DealPlanV1) (c : HandConfig) (h : MultiwayHand) : Prop :=
  plan.intoDeck = .ok c.deck ∧ ∃ start paced, c.build = .ok start ∧ h = { start with pacedShowdown := paced }

section hands
variable {plan : DealPlanV1} {c : HandConfig} {h : MultiwayHand} {p : SeatId}

theorem HandFrom.starts (hf : HandFrom plan c h) : HandStarts c h := ⟨intoDeck_shuffled hf.1, hf.2⟩

theorem HandFrom.cards (hf : HandFrom plan c h) : c.deck.cards = plan.cards := by
  have hdeck := hf.1
  unfold intoDeck at hdeck
  cases hv : plan.validate with
  | error e => rw [hv] at hdeck; cases hdeck
  | ok u => rw [hv] at hdeck; rw [← Except.ok.inj hdeck]

theorem board_le_five (hb : h.BoardFits) : h.board.length ≤ 5 := by
  unfold BoardFits at hb
  cases hphase : h.phase with
  | preflop | flop | turn | river | showdown =>
    rw [hphase] at hb
    dsimp only at hb
    omega
  | handComplete =>
    rw [hphase] at hb
    simp only [List.mem_cons, List.not_mem_nil, or_false] at hb
    omega

/-- The board of a hand opens what the plan has behind the hole cards. -/
theorem HandFrom.board (hf : HandFrom plan c h) {n : Nat} (hn : c.dealingOrder.length = n) {board : Vector Card 5}
    {rest : List Card}
    (hplan : plan.cards.drop (n * 2) = board.toList ++ rest) (ops : List HandOp) : (h.run ops).board <+: board.toList := by
  have horder := hf.starts.inOrder_run ops
  have hfew := board_le_five (MultiwayHand.run_deals hf.starts ops).1.board
  have hboard := horder.board
  rw [hf.cards, hn, Nat.mul_comm, hplan] at hboard
  rw [hboard, List.take_append_of_le_length (by rw [Vector.length_toList]; exact hfew)]
  exact List.take_prefix _ _

theorem HandFrom.order_length (hf : HandFrom plan c h) : c.dealingOrder.length = c.seatStacks.length := by
  obtain ⟨_, start, _, hb, _⟩ := hf
  obtain ⟨seats, chips, sb, bb, first, table, hbuilt⟩ := MultiwayHand.build_built hb
  rw [hbuilt.dealingOrder_perm.length_eq, List.length_map]

theorem lookup_zip_map {α : Type} {l : List SeatId} {f : SeatId → α} (hp : p ∈ l) : (l.zip (l.map f)).lookup p = some (f p) := by
  induction l with
  | nil => cases hp
  | cons q l ih =>
    rw [List.map_cons, List.zip_cons_cons, List.lookup_cons]
    by_cases hpq : p = q
    · subst hpq
      simp
    · have hskip : (p == q) = false := beq_eq_false_iff_ne.mpr hpq
      rw [hskip]
      exact ih ((List.mem_cons.mp hp).resolve_left hpq)

end hands

/-! ## Assigned cards -/

section assigned
variable {tableSize : TableSize} {button : SeatId} {occupied : List SeatId} {seats seats' : Finset SeatId}

theorem collectSeats_ok (h : collectSeats tableSize seats occupied = .ok seats') :
    ∀ p, p ∈ seats' ↔ p ∈ seats ∨ p ∈ occupied := by
  induction occupied generalizing seats with
  | nil => cases h; simp
  | cons q rest ih =>
    unfold collectSeats at h
    split at h
    · cases h
    split at h
    · cases h
    intro p
    rw [ih h, Finset.mem_insert, List.mem_cons]
    tauto

theorem validateOccupied_ok (h : validateOccupied tableSize button occupied = .ok seats) : ∀ p, p ∈ seats ↔ p ∈ occupied := by
  unfold validateOccupied at h
  split at h
  · cases h
  split at h
  · cases h
  rename_i hcollect
  split at h
  · cases h
    intro p
    rw [collectSeats_ok hcollect]
    simp
  · cases h

/-- What a plan is made of: the first cards clockwise, the second ones, the board, and the rest. -/
structure Assigns (tableSize : TableSize) (button : SeatId) (occupied : List SeatId) (holeCards : OrdMap SeatId (Card × Card))
    (board : Vector Card 5) (plan : DealPlanV1) (seats : Finset SeatId) (hole : SeatId → Card × Card) : Prop where
  valid : plan.validate = .ok ()
  occupied : ∀ p, p ∈ seats ↔ p ∈ occupied
  assigned : ∀ p ∈ seats, holeCards.find? p = some (hole p)
  cards : ∃ rest, plan.cards = (clockwise tableSize button seats).map (fun p => (hole p).1) ++
    (clockwise tableSize button seats).map (fun p => (hole p).2) ++ board.toList ++ rest

variable {holeCards : OrdMap SeatId (Card × Card)} {board : Vector Card 5} {plan : DealPlanV1}

theorem mapM_some {α : Type} {l : List SeatId} {f : SeatId → Option α} {g : SeatId → α} (h : ∀ p ∈ l, f p = some (g p)) :
    l.mapM f = some (l.map g) := by
  induction l with
  | nil => rfl
  | cons q l ih =>
    rw [List.mapM_cons, h q List.mem_cons_self, ih fun p hp => h p (List.mem_cons_of_mem _ hp)]
    rfl

/-- The lookups never stop: the keys are those of the seats. -/
theorem fromAssignments_cases (review : ReviewShuffle) (tableSize : TableSize) (button : SeatId) (occupied : List SeatId)
    (holeCards : OrdMap SeatId (Card × Card)) (board : Vector Card 5) (fillerSeed : Nat) :
    (∃ error, fromAssignments review tableSize button occupied holeCards board fillerSeed = some (.error error)) ∨
    ∃ plan seats hole, fromAssignments review tableSize button occupied holeCards board fillerSeed = some (.ok plan) ∧
      Assigns tableSize button occupied holeCards board plan seats hole := by
  unfold fromAssignments
  cases hvalid : validateOccupied tableSize button occupied with
  | error error => exact Or.inl ⟨error, rfl⟩
  | ok seats =>
    dsimp only
    by_cases hkeys : holeCards.keys.toFinset ≠ seats
    · rw [if_pos hkeys]
      exact Or.inl ⟨_, rfl⟩
    rw [if_neg hkeys]
    have hfound : ∀ p ∈ seats, holeCards.find? p = some ((holeCards.find? p).getD (board[0], board[0])) := by
      intro p hp
      rw [← not_not.mp hkeys, List.mem_toFinset] at hp
      obtain ⟨pair, hpair⟩ := (holeCards.mem_keys).mp hp
      rw [hpair]
      rfl
    rw [mapM_some fun p hp => hfound p (by simpa using (List.mem_filter.mp hp).2)]
    simp only [bind, Option.bind, pure, List.map_map]
    cases hplan : completeFrom _ _ with
    | error error => exact Or.inl ⟨error, rfl⟩
    | ok plan =>
      obtain ⟨_, hok, hcards⟩ := completeFrom_ok hplan
      exact Or.inr ⟨plan, seats, _, rfl, hok, validateOccupied_ok hvalid, hfound, _, hcards⟩

variable {c : HandConfig} {h : MultiwayHand} {seats : Finset SeatId} {hole : SeatId → Card × Card}

/-- The engine deals the seats in the order the plan was laid out. -/
theorem dealingOrder_eq (hsize : c.tableSize = tableSize) (hbutton : c.button = button)
    (hseats : ∀ p, p ∈ c.seatStacks.map (·.1) ↔ p ∈ seats) : c.dealingOrder = clockwise tableSize button seats := by
  subst hsize hbutton
  refine List.filter_congr ?_
  intro p _
  rw [Bool.eq_iff_iff, MultiwayHand.lookup_isSome, hseats, decide_eq_true_iff]

theorem Assigns.deals (ha : Assigns tableSize button occupied holeCards board plan seats hole) (hf : HandFrom plan c h)
    (hsize : c.tableSize = tableSize) (hbutton : c.button = button)
    (hseats : ∀ p, p ∈ c.seatStacks.map (·.1) ↔ p ∈ occupied) (ops : List HandOp) :
    (∀ p ∈ occupied, ∃ first second, holeCards.find? p = some (first, second) ∧
      ((h.run ops).seat p).holeCards = [first, second]) ∧
      (h.run ops).board <+: board.toList := by
  have horder := dealingOrder_eq hsize hbutton fun p => (hseats p).trans (ha.occupied p).symm
  obtain ⟨rest, hcards⟩ := ha.cards
  have hdealt := (hf.starts.inOrder_run ops).hole
  rw [hf.cards, horder, hcards] at hdealt
  constructor
  · intro p hp
    have hseat := (ha.occupied p).mpr hp
    have hmem : p ∈ clockwise tableSize button seats := by
      obtain ⟨_, start, _, hb, _⟩ := hf
      obtain ⟨_, _, _, _, _, _, hbuilt⟩ := MultiwayHand.build_built hb
      rw [← horder]
      exact hbuilt.dealingOrder_perm.mem_iff.mpr ((hseats p).mpr hp)
    refine ⟨(hole p).1, (hole p).2, ha.assigned p hseat, ?_⟩
    rw [hdealt]
    generalize clockwise tableSize button seats = l at hmem
    have hone : (l.map (fun p => (hole p).1) ++ l.map (fun p => (hole p).2) ++ board.toList ++ rest).take l.length =
        l.map fun p => (hole p).1 := by
      rw [List.append_assoc, List.append_assoc]
      exact List.take_left' (List.length_map _)
    have htwo : ((l.map (fun p => (hole p).1) ++ l.map (fun p => (hole p).2) ++ board.toList ++ rest).drop
        l.length).take l.length =
        l.map fun p => (hole p).2 := by
      rw [List.append_assoc, List.append_assoc, List.drop_left' (List.length_map _)]
      exact List.take_left' (List.length_map _)
    rw [hone, htwo, lookup_zip_map hmem, lookup_zip_map hmem]
    rfl
  · have hbehind : plan.cards.drop (c.dealingOrder.length * 2) = board.toList ++ rest := by
      rw [horder, hcards, List.append_assoc]
      refine List.drop_left' ?_
      rw [List.length_append, List.length_map, List.length_map]
      omega
    exact hf.board rfl hbehind ops

end assigned

/-! ## Another runout -/

section runout
variable {plan branched : DealPlanV1} {n : Nat} {board : Vector Card 5} {c c' : HandConfig} {h h' : MultiwayHand}

theorem branchPublicRunout_ok (hb : plan.branchPublicRunout n board = .ok branched) : branched.validate = .ok () ∧
    n * 2 ≤ plan.cards.length ∧ ∃ rest, branched.cards = plan.cards.take (n * 2) ++ board.toList ++ rest := by
  unfold branchPublicRunout at hb
  split at hb
  · cases hb
  rename_i hvalid
  split at hb
  · cases hb
  rename_i hcount
  obtain ⟨_, hok, hcards⟩ := completeFrom_ok hb
  have hlength := (validate_perm hvalid).1.length_eq
  rw [Deck.new_length] at hlength
  exact ⟨hok, by omega, _, hcards⟩

/-- A runout is refused for one of its cards, out already. -/
theorem branchPublicRunout_cases (hvalid : plan.validate = .ok ()) (hlo : 2 ≤ n) (hhi : n ≤ 9) (board : Vector Card 5) :
    ((board.toList.Nodup ∧ ∀ card ∈ board.toList, card ∉ plan.cards.take (n * 2)) ∧
        ∃ branched, plan.branchPublicRunout n board = .ok branched) ∨
      (¬(board.toList.Nodup ∧ ∀ card ∈ board.toList, card ∉ plan.cards.take (n * 2)) ∧
        ∃ card ∈ board.toList, plan.branchPublicRunout n board = .error (.duplicateCard card)) := by
  have hperm := (validate_perm hvalid).1
  have hprivate : (plan.cards.take (n * 2)).Nodup := (hperm.nodup_iff.mpr Deck.new_nodup).sublist (List.take_sublist _ _)
  have hcalled : plan.branchPublicRunout n board = completeFrom (plan.cards.take (n * 2) ++ board.toList) plan.cards := by
    rw [branchPublicRunout, hvalid]
    exact if_neg (not_not.mpr ⟨hlo, hhi⟩)
  have hnodup : (plan.cards.take (n * 2) ++ board.toList).Nodup ↔
      board.toList.Nodup ∧ ∀ card ∈ board.toList, card ∉ plan.cards.take (n * 2) := by
    rw [List.nodup_append]
    constructor
    · intro hall
      exact ⟨hall.2.1, fun card hc hd => hall.2.2 card hd card hc rfl⟩
    · intro hboard
      exact ⟨hprivate, hboard.1, fun a ha b hb heq => hboard.2 b hb (heq ▸ ha)⟩
  rw [hcalled, ← hnodup]
  rcases completeFrom_cases (plan.cards.take (n * 2) ++ board.toList) hperm with hok | ⟨hdup, error, hcompleted, hunique⟩
  · exact Or.inl hok
  · rw [ensureUnique_append _ hprivate fun _ _ => List.not_mem_nil] at hunique
    obtain ⟨card, hcard, rfl⟩ := ensureUnique_error hunique
    exact Or.inr ⟨hdup, card, hcard, hcompleted⟩

/-- The hands before and after it. -/
theorem branch_deals (hb : plan.branchPublicRunout n board = .ok branched) (hf : HandFrom plan c h)
    (hf' : HandFrom branched c' h')
    (hsame : c' = { c with deck := c'.deck }) (hn : c.seatStacks.length = n) (ops ops' : List HandOp) :
    (∀ p, ((h'.run ops').seat p).holeCards = ((h.run ops).seat p).holeCards) ∧ (h'.run ops').board <+: board.toList := by
  obtain ⟨_, hlong, rest, hcards⟩ := branchPublicRunout_ok hb
  have horder : c'.dealingOrder = c.dealingOrder := by rw [hsame]; rfl
  have hlength : c.dealingOrder.length = n := hf.order_length.trans hn
  have hkept : branched.cards.take (n * 2) = plan.cards.take (n * 2) := by
    rw [hcards, List.append_assoc]
    exact List.take_left' (by rw [List.length_take]; omega)
  constructor
  · intro p
    have hone : branched.cards.take n = plan.cards.take n := by
      have htaken := congrArg (List.take n) hkept
      rwa [List.take_take, List.take_take, show min n (n * 2) = n by omega] at htaken
    have htwo : (branched.cards.drop n).take n = (plan.cards.drop n).take n := by
      have htaken := congrArg (List.drop n) hkept
      rwa [List.drop_take, List.drop_take, show n * 2 - n = n by omega] at htaken
    rw [(hf'.starts.inOrder_run ops').hole, (hf.starts.inOrder_run ops).hole, hf.cards, hf'.cards, horder, hlength, hone, htwo]
  · have hbehind : branched.cards.drop (n * 2) = board.toList ++ rest := by
      rw [hcards, List.append_assoc]
      exact List.drop_left' (by rw [List.length_take]; omega)
    exact hf'.board (horder ▸ hlength) hbehind ops'

end runout

/-- A plan from assigned cards is an order of the 52 cards, and a hand built from it on that table
    gives each seat its two and opens the assigned board in order, whatever is called. A runout for
    the seats dealt in leaves their cards as they were and opens the given board, and is refused
    exactly when one of its cards is dealt already. -/
theorem plans_deal (review : ReviewShuffle) :
    (∀ tableSize button occupied holeCards board fillerSeed plan,
      fromAssignments review tableSize button occupied holeCards board fillerSeed = some (.ok plan) →
      plan.cards.Perm Deck.new.cards ∧
        ∀ c h, HandFrom plan c h → c.tableSize = tableSize → c.button = button →
          (∀ p, p ∈ c.seatStacks.map (·.1) ↔ p ∈ occupied) → ∀ ops : List HandOp,
            (∀ p ∈ occupied, ∃ first second, holeCards.find? p = some (first, second) ∧
              ((h.run ops).seat p).holeCards = [first, second]) ∧ (h.run ops).board <+: board.toList) ∧
      ∀ (plan : DealPlanV1) (n : Nat) (board : Vector Card 5), plan.validate = .ok () → 2 ≤ n → n ≤ 9 →
        ((∃ branched, plan.branchPublicRunout n board = .ok branched) ↔
          board.toList.Nodup ∧ ∀ card ∈ board.toList, card ∉ plan.cards.take (n * 2)) ∧
        (∀ error, plan.branchPublicRunout n board = .error error → ∃ card ∈ board.toList, error = .duplicateCard card) ∧
        ∀ branched, plan.branchPublicRunout n board = .ok branched →
          branched.cards.Perm Deck.new.cards ∧ branched.cards.take (n * 2) = plan.cards.take (n * 2) ∧
            (branched.cards.drop (n * 2)).take 5 = board.toList ∧
            ∀ c c' h h', HandFrom plan c h → HandFrom branched c' h' → c' = { c with deck := c'.deck } →
              c.seatStacks.length = n → ∀ ops ops' : List HandOp,
                (∀ p, ((h'.run ops').seat p).holeCards = ((h.run ops).seat p).holeCards) ∧
                  (h'.run ops').board <+: board.toList := by
  constructor
  · intro tableSize button occupied holeCards board fillerSeed plan hplan
    obtain ⟨_, herror⟩ | ⟨_, seats, hole, hok, ha⟩ := fromAssignments_cases review tableSize button occupied
      holeCards board fillerSeed
    · rw [hplan] at herror
      cases herror
    · rw [hplan] at hok
      cases hok
      exact ⟨(validate_perm ha.valid).1, fun c h hf hsize hbutton hseats => ha.deals hf hsize hbutton hseats⟩
  · intro plan n board hvalid hlo hhi
    have hcases := branchPublicRunout_cases hvalid hlo hhi board
    refine ⟨?_, ?_, ?_⟩
    · constructor
      · intro hok
        obtain ⟨branched, hok⟩ := hok
        rcases hcases with hgood | ⟨_, card, _, herror⟩
        · exact hgood.1
        · rw [hok] at herror; cases herror
      · intro hgood
        rcases hcases with hok | hbad
        · exact hok.2
        · exact absurd hgood hbad.1
    · intro error herror
      rcases hcases with ⟨_, branched, hok⟩ | ⟨_, card, hcard, hdup⟩
      · rw [hok] at herror; cases herror
      · rw [hdup] at herror
        exact ⟨card, hcard, (Except.error.inj herror).symm⟩
    · intro branched hb
      obtain ⟨hok, hlong, rest, hcards⟩ := branchPublicRunout_ok hb
      have htaken : (plan.cards.take (n * 2)).length = n * 2 := by rw [List.length_take]; omega
      refine ⟨(validate_perm hok).1, ?_, ?_, fun c c' h h' hf hf' hsame hn => branch_deals hb hf hf' hsame hn⟩
      · rw [hcards, List.append_assoc]
        exact List.take_left' htaken
      · rw [hcards, List.append_assoc, List.drop_left' htaken]
        exact List.take_left' (Vector.length_toList)

/-- Aces against kings, and a board that misses both. -/
def headsUpHoles : OrdMap SeatId (Card × Card) :=
  (OrdMap.empty.insert 0 (⟨.ace, .spades⟩, ⟨.ace, .hearts⟩)).insert 1 (⟨.king, .spades⟩, ⟨.king, .hearts⟩)

def headsUpBoard : Vector Card 5 :=
  #v[⟨.two, .clubs⟩, ⟨.three, .diamonds⟩, ⟨.four, .spades⟩, ⟨.eight, .hearts⟩, ⟨.nine, .clubs⟩]

/-- Another board, without a card of the players'. -/
def otherBoard : Vector Card 5 :=
  #v[⟨.queen, .clubs⟩, ⟨.jack, .diamonds⟩, ⟨.ten, .spades⟩, ⟨.six, .hearts⟩, ⟨.five, .clubs⟩]

def headsUpPlan : Option (Except DealPlanError DealPlanV1) :=
  fromAssignments (fun _ => ⟨Deck.new, .refl _, rfl⟩) .two 0 [0, 1] headsUpHoles headsUpBoard 11

/-- A plan that passes and the hand it builds. -/
theorem handFrom_headsUp {plan : DealPlanV1}
    (hruns : (plan.validate.toOption.isSome, ((ArenaConfig.headsUp 100).hand plan).build.toOption.isSome) = (true, true)) :
    plan.validate = .ok () ∧ ∃ h, HandFrom plan ((ArenaConfig.headsUp 100).hand plan) h := by
  obtain ⟨hvalid, hbuilds⟩ := Prod.mk.inj hruns
  cases hok : plan.validate with
  | error e => rw [hok] at hvalid; cases hvalid
  | ok u =>
    cases hhand : ((ArenaConfig.headsUp 100).hand plan).build with
    | error e => rw [hhand] at hbuilds; cases hbuilds
    | ok start => exact ⟨rfl, start, (validate_perm hok).2, start, start.pacedShowdown, hhand, rfl⟩

/-- The plan deals the aces and opens its board, and branched, the aces and the other board. -/
theorem plans_deal_heads_up : ∃ plan h branched h', headsUpPlan = some (.ok plan) ∧
    HandFrom plan ((ArenaConfig.headsUp 100).hand plan) h ∧ plan.branchPublicRunout 2 otherBoard = .ok branched ∧
    HandFrom branched ((ArenaConfig.headsUp 100).hand branched) h' ∧ ∀ ops ops' : List HandOp,
      ((h.run ops).seat 0).holeCards = [⟨.ace, .spades⟩, ⟨.ace, .hearts⟩] ∧ (h.run ops).board <+: headsUpBoard.toList ∧
        ((h'.run ops').seat 0).holeCards = [⟨.ace, .spades⟩, ⟨.ace, .hearts⟩] ∧ (h'.run ops').board <+: otherBoard.toList := by
  have hruns : headsUpPlan.map (fun result => result.toOption.map fun plan =>
      ((plan.validate.toOption.isSome, ((ArenaConfig.headsUp 100).hand plan).build.toOption.isSome),
        (plan.branchPublicRunout 2 otherBoard).toOption.map fun branched =>
          (branched.validate.toOption.isSome, ((ArenaConfig.headsUp 100).hand branched).build.toOption.isSome))) =
      some (some ((true, true), some (true, true))) := by
    decide +kernel
  cases hplan : headsUpPlan with
  | none => rw [hplan] at hruns; cases hruns
  | some result =>
    rw [hplan] at hruns
    cases result with
    | error e => cases hruns
    | ok plan =>
      obtain ⟨hplayed, hbranched⟩ := Prod.mk.inj (Option.some.inj (Option.some.inj hruns))
      obtain ⟨hvalid, h, hf⟩ := handFrom_headsUp hplayed
      cases hbranch : plan.branchPublicRunout 2 otherBoard with
      | error e => rw [hbranch] at hbranched; cases hbranched
      | ok branched =>
        rw [hbranch] at hbranched
        obtain ⟨_, h', hf'⟩ := handFrom_headsUp (Option.some.inj hbranched)
        refine ⟨plan, h, branched, h', rfl, hf, hbranch, hf', ?_⟩
        intro ops ops'
        obtain ⟨hdealt, hboard⟩ := ((plans_deal _).1 _ _ _ _ _ _ _ hplan).2 _ _ hf rfl rfl (fun p => Iff.rfl) ops
        obtain ⟨first, second, hfound, hhole⟩ := hdealt 0 (by decide)
        have hassigned : headsUpHoles.find? 0 = some (⟨.ace, .spades⟩, ⟨.ace, .hearts⟩) := by decide
        rw [hassigned] at hfound
        cases hfound
        obtain ⟨_, _, hafter⟩ := (plans_deal fun _ => ⟨Deck.new, .refl _, rfl⟩).2 plan 2 otherBoard hvalid (by decide) (by decide)
        obtain ⟨_, _, _, hdeals⟩ := hafter branched hbranch
        obtain ⟨hsame, hrunout⟩ := hdeals _ _ h h' hf hf' rfl rfl ops ops'
        exact ⟨hhole, hboard, (hsame 0).trans hhole, hrunout⟩

end DealPlanV1

end OpenFelt
