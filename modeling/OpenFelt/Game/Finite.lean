/-
  OpenFelt.Game.Finite — every hand ends (`src/game/multiway.rs`, `apply_command`,
  `betting_round_complete`, `advance_street`).

  A hand has streets, chips behind and seats to respond left, and an accepted command
  takes from them in that order: a raise asks everybody again but costs chips, a new
  street asks everybody again but is one street fewer. Proved: every accepted command of
  every run lowers what is left, and a hand accepts no more of them than its stacks and
  seats pay for (`run_finite`).
-/

import OpenFelt.Game.Runs
import OpenFelt.Lib.Drive

namespace OpenFelt

open Betting

/-! ## What is left -/

/-- `y` is `x` less a street, else less some chips, else less a response; at most `seats`
    responses are ever due. -/
inductive Spends (seats : Nat) : Nat × Nat × Nat → Nat × Nat × Nat → Prop
  | street {a b c a' b' c' : Nat} : a' < a → b' ≤ b → c' ≤ seats → Spends seats (a', b', c') (a, b, c)
  | chips {a b c b' c' : Nat} : b' < b → c' ≤ seats → Spends seats (a, b', c') (a, b, c)
  | response {a b c c' : Nat} : c' < c → Spends seats (a, b, c') (a, b, c)

/-- The order of streets, then chips, then responses. -/
abbrev Fewer : Nat × Nat × Nat → Nat × Nat × Nat → Prop := Prod.Lex (· < ·) (Prod.Lex (· < ·) (· < ·))

/-- Commands that streets, chips and responses pay for. -/
def commandsLeft (seats : Nat) (x : Nat × Nat × Nat) : Nat := (x.1 + x.2.1) * (seats + 1) + x.2.2

section spends
variable {seats : Nat} {x y : Nat × Nat × Nat}

theorem Spends.fewer (h : Spends seats y x) : Fewer y x := by
  cases h with
  | street h _ _ => exact .left _ _ h
  | chips h _ => exact .right _ (.left _ _ h)
  | response h => exact .right _ (.right _ h)

theorem Spends.chips_le (h : Spends seats y x) : y.2.1 ≤ x.2.1 := by
  cases h with
  | street _ h _ => exact h
  | chips h _ => exact Nat.le_of_lt h
  | response _ => exact Nat.le_refl _

theorem Spends.mono {most : Nat} (h : Spends seats y x) (hle : seats ≤ most) : Spends most y x := by
  cases h with
  | street h1 h2 h3 => exact .street h1 h2 (Nat.le_trans h3 hle)
  | chips h1 h2 => exact .chips h1 (Nat.le_trans h2 hle)
  | response h1 => exact .response h1

theorem Spends.commandsLeft_lt (h : Spends seats y x) : commandsLeft seats y < commandsLeft seats x := by
  cases h with
  | @street a b c a' b' c' ha hb hc =>
    have hle := Nat.mul_le_mul_right (seats + 1) (show a' + b' + 1 ≤ a + b by omega)
    rw [Nat.add_mul (a' + b')] at hle
    simp only [commandsLeft]
    omega
  | @chips a b c b' c' hb hc =>
    have hle := Nat.mul_le_mul_right (seats + 1) (show a + b' + 1 ≤ a + b by omega)
    rw [Nat.add_mul (a + b')] at hle
    simp only [commandsLeft]
    omega
  | response hc =>
    simp only [commandsLeft]
    omega

end spends

/-- More commands than a hand so configured can accept. -/
def HandConfig.commandBound (c : HandConfig) : Nat :=
  (MultiwayPhase.preflop.streetsLeft + 1 + (c.seatStacks.map (·.2)).sum) * (c.seatStacks.length + 1)

namespace MultiwayHand

/-- The phase takes actions and no showdown is pending. -/
def betting (h : MultiwayHand) : Bool := h.phase.acceptsActions && h.showdownProgress.isNone

/-- The streets, the chips behind and the seats still to respond. -/
def left (h : MultiwayHand) : Nat × Nat × Nat :=
  if h.betting then (h.phase.streetsLeft, h.sumSeats (·.stack), (h.occupiedSeats.filter h.needsAction).length) else (0, 0, 0)

/-- Whether the call is an accepted command. -/
def accepts (op : HandOp) (h : MultiwayHand) : Bool :=
  match op with
  | .command command => (h.applyCommand command).1.isOk
  | _ => false

/-- The accepted commands of a run. -/
def acceptedCommands (h : MultiwayHand) (ops : List HandOp) : Nat :=
  Drive.cost (fun op h => (op.apply h).2) (fun op h => (accepts op h).toNat) ops h

section finite
variable {c : HandConfig} {h g k : MultiwayHand} {posted : Nat} {command : SeatCommand} {op : HandOp}

theorem left_of_betting (hb : h.betting = true) :
    h.left = (h.phase.streetsLeft, h.sumSeats (·.stack), (h.occupiedSeats.filter h.needsAction).length) := if_pos hb

theorem left_of_done (hb : h.betting = false) : h.left = (0, 0, 0) := by simp [left, hb]

theorem UnderWay.betting (hu : g.UnderWay posted) : g.betting = true := by
  simp [MultiwayHand.betting, hu.accepts, hu.quiet.progress]

theorem Showing.betting {progress : ShowdownProgress} (hs : h.Showing progress) : h.betting = false := by
  simp [MultiwayHand.betting, hs.tabled.current]

theorem Over.betting (ho : h.Over) : h.betting = false := by
  rcases ho.phase with e | e <;> simp [MultiwayHand.betting, e, MultiwayPhase.acceptsActions]

/-- What is left, read off the street. -/
theorem UnderWay.left_eq (hu : g.UnderWay posted) :
    g.left = (g.phase.streetsLeft, g.street.behind g.occupiedSeats, g.street.owing g.occupiedSeats) := by
  rw [left_of_betting hu.betting, Street.owing, List.countP_eq_length_filter]
  have hneeds : g.occupiedSeats.filter g.needsAction = g.occupiedSeats.filter fun p => g.street.Asked p :=
    List.filter_congr fun p _ => by rw [Bool.eq_iff_iff, needsAction_iff hu.sound, decide_eq_true_iff]
  rw [hneeds]
  rfl

/-- The action itself costs chips or settles a response. -/
theorem Acted.spends {o : Outcome} {p : SeatId} {action : Action} (hu : h.UnderWay posted) (hug : g.UnderWay posted)
    (hask : h.street.Asked p) (ha : Allowed h.street p o) (hacted : Acted h p action o g) :
    Spends h.occupiedSeats.length g.left h.left := by
  have hphase : g.phase = h.phase := by rw [hacted.frame]
  have hocc : p ∈ h.occupiedSeats :=
    (mem_occupiedSeats hu.booked.length).mpr (occupied_of_status (by rw [hask.1]; simp))
  rw [hug.left_eq, hu.left_eq, hphase, hacted.occupiedSeats, hacted.street]
  rcases ha.spends hu.sound hu.blind hask (nodup_occupiedSeats h) hocc with hless | ⟨hsame, hless⟩
  · exact .chips hless (owing_le _ _)
  · rw [hsame]
    exact .response hless

/-- An accepted command takes a street, some chips or a response. -/
theorem Playing.spends (hp : h.Playing posted) (hv : h.validateCommand command = .ok ()) :
    Spends h.occupiedSeats.length (h.applyValidatedAction command.seat command.action).left h.left := by
  obtain ⟨o, g, ha, hacted, hu, _, hasked, hproceeds⟩ := hp.command_cases hv
  have hspent := hacted.spends hp.toUnderWay hu hasked ha
  have hover : ∀ k : MultiwayHand, k.betting = false → Spends h.occupiedSeats.length k.left h.left := fun k hk => by
    rw [left_of_done hk, hp.toUnderWay.left_eq]
    exact .street (MultiwayPhase.streetsLeft_pos hp.accepts) (Nat.zero_le _) (Nat.zero_le _)
  generalize h.applyValidatedAction command.seat command.action = k at hproceeds
  cases hproceeds with
  | foldedOut hone => exact hover _ (awardFold_over hu hone).betting
  | asks q _ _ _ => exact hspent
  | deals hcount hdone hriver hact =>
    obtain ⟨_, _, hseats⟩ := dealStreet_table hu hriver
    have hphase : g.dealStreet.phase = g.phase.next := by rw [(dealStreet_frame hu hriver).1]
    have hnext := (MultiwayPhase.next_later hu.accepts hriver).2.1
    have hsame : g.phase = h.phase := by rw [hacted.frame]
    have hstacks : g.dealStreet.street.behind g.dealStreet.occupiedSeats = g.street.behind g.occupiedSeats := by
      rw [dealStreet_street hu hriver, hseats]; rfl
    have hfewer : g.street.behind g.occupiedSeats ≤ h.street.behind h.occupiedSeats := by
      rw [hu.left_eq, hp.toUnderWay.left_eq] at hspent
      exact hspent.chips_le
    have hplaying := hu.dealt hriver hcount hact
    rw [hplaying.toUnderWay.left_eq, hp.toUnderWay.left_eq, hphase, hstacks]
    refine .street (by rw [← hsame]; exact hnext) hfewer (Nat.le_trans (owing_le _ _) ?_)
    rw [hseats, hacted.occupiedSeats]
  | shows hcount _ hend =>
    rcases hu.begins hcount hend with ⟨_, progress, hs, he⟩ | ⟨_, g', progress, _, _, he⟩
    · rw [he]; exact hover _ hs.betting
    · rw [he]; exact hover _ (settle_over _).betting

/-! ## Runs -/

theorem Carries.seats_le (hc : Carries c g) (hlen : g.seats.length = g.tableSize.get) :
    g.occupiedSeats.length ≤ c.seatStacks.length := by
  have hsub : g.occupiedSeats ⊆ c.seatStacks.map (·.1) := fun p hp => by
    have hocc := (mem_occupiedSeats hlen).mp hp
    rw [hc.occupied, List.lookup_isSome_iff] at hocc
    obtain ⟨entry, he, hseat⟩ := hocc
    exact List.mem_map.mpr ⟨entry, he, (beq_iff_eq.mp hseat).symm⟩
  have hle := (List.subperm_of_subset (nodup_occupiedSeats g) hsub).length_le
  rwa [List.length_map] at hle

/-- An accepted command lowers what is left. -/
theorem Stage.spends (hs : Stage c posted h) (hv : h.validateCommand command = .ok ()) :
    Spends c.seatStacks.length (h.applyCommand command).2.left h.left := by
  obtain ⟨hc, hp⟩ := hs.playing_of_accepted hv
  have hseats := hc.seats_le hp.booked.length
  simp only [applyCommand, hv]
  exact (hp.spends hv).mono hseats

/-- Every call is paid for by what is left. -/
theorem Stage.pays (hs : Stage c posted h) (op : HandOp) :
    (accepts op h).toNat + commandsLeft c.seatStacks.length (op.apply h).2.left ≤ commandsLeft c.seatStacks.length h.left := by
  by_cases hr : (op.apply h).1 = false
  · have hno : accepts op h = false := by
      cases op with
      | command command => exact hr
      | advance | alwaysShow _ _ => rfl
    rw [apply_refused hr, hno]
    simp
  cases op with
  | command command =>
    have hv : h.validateCommand command = .ok () := by
      cases hval : h.validateCommand command with
      | ok _ => rfl
      | error e => simp [HandOp.apply, applyCommand, hval, Except.isOk, Except.toBool] at hr
    have hlt := (hs.spends hv).commandsLeft_lt
    have hone := Bool.toNat_le (accepts (.command command) h)
    simp only [HandOp.apply]
    omega
  | advance =>
    have hzero : (HandOp.advance.apply h).2.left = (0, 0, 0) := by
      have hnext := hs.step .advance
      cases hs with
      | playing _ hp =>
        rw [show HandOp.advance.apply h = (false, h) from advanceShowdown_none hp.quiet.progress] at hr
        exact absurd rfl hr
      | showing _ hsh _ =>
        rcases hsh.advance_cases with ⟨h', progress', he, hs', _⟩ | ⟨g, _, _, _, _, he⟩
        · rw [show HandOp.advance.apply h = _ from he]; exact left_of_done hs'.betting
        · rw [show HandOp.advance.apply h = _ from he]; exact left_of_done (settle_over _).betting
      | settled _ _ => exact absurd (settle_over _).refuses hr
      | folded _ hu hone => exact absurd (awardFold_over hu hone).refuses hr
    rw [hzero]
    simp [accepts, commandsLeft]
  | alwaysShow seat value =>
    have hsame : (HandOp.apply (.alwaysShow seat value) h).2.left = h.left := by
      simp only [HandOp.apply, setAlwaysShow]
      split
      · rfl
      split <;> rfl
    rw [hsame]
    simp [accepts]

/-- What a hand has left is within its bound. -/
theorem Stage.commandsLeft_le (hs : Stage c posted h) : commandsLeft c.seatStacks.length h.left ≤ c.commandBound := by
  by_cases hb : h.betting = true
  · obtain ⟨hc, hp⟩ : Carries c h ∧ h.Playing posted := by
      cases hs with
      | playing hc hp => exact ⟨hc, hp⟩
      | showing _ hsh _ => rw [hsh.betting] at hb; cases hb
      | settled _ _ => rw [(settle_over _).betting] at hb; cases hb
      | folded _ hu hone => rw [(awardFold_over hu hone).betting] at hb; cases hb
    have hchips : h.sumSeats (·.stack) ≤ (c.seatStacks.map (·.2)).sum := by
      rw [← hc.initialTotal, ← hp.total, totalChips]
      exact Nat.le_add_right _ _
    have hstreets : h.phase.streetsLeft ≤ MultiwayPhase.preflop.streetsLeft := by
      cases h.phase <;> decide
    have hdue : (h.occupiedSeats.filter h.needsAction).length ≤ c.seatStacks.length :=
      Nat.le_trans (List.length_filter_le _ _) (hc.seats_le hp.booked.length)
    have hle := Nat.mul_le_mul_right (c.seatStacks.length + 1) (Nat.add_le_add hstreets hchips)
    rw [left_of_betting hb, HandConfig.commandBound, Nat.add_right_comm, Nat.add_mul _ 1]
    simp only [commandsLeft]
    omega
  · rw [left_of_done (Bool.not_eq_true _ ▸ hb)]
    simp [commandsLeft]

/-- Every accepted command of every run lowers the streets, chips and responses left, in that
    order, and the hand accepts no more commands than its stacks and seats allow. -/
theorem run_finite (hstarts : HandStarts c h) (ops : List HandOp) :
    (∀ command, (h.run ops).validateCommand command = .ok () →
        Fewer ((h.run ops).applyCommand command).2.left (h.run ops).left) ∧
      h.acceptedCommands ops ≤ c.commandBound := by
  refine ⟨fun command hv => ((hstarts.stage.run ops).spends hv).fewer, ?_⟩
  have hstage := hstarts.stage
  have hcost := Drive.cost_le (P := Stage c h.currentWager) (μ := fun k => commandsLeft c.seatStacks.length k.left)
    (fun op k hk => ⟨hk.step op, hk.pays op⟩) hstage ops
  have hbound := hstage.commandsLeft_le
  simp only [acceptedCommands]
  omega

theorem run_finite_three : ∃ h, HandStarts threeHanded h ∧ h.acceptedCommands threeHandedToShowdown ≤ 688 := by
  obtain ⟨h, hs, _⟩ := threeHanded_starts
  exact ⟨h, hs, (run_finite hs threeHandedToShowdown).2⟩

end finite

end MultiwayHand

end OpenFelt
