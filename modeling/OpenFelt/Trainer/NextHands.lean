/-
  OpenFelt.Trainer.NextHands — the hands a session deals one after the other.

  The button moves to a seat of `settings.seats`, which a save can change, while the table
  keeps its size. Proved (`next_hand_deals`): a session ready for another hand is dealt it,
  with the button one seat on and every stack carried over, just when the two agree on that
  seat and the chips fit together (`Dealable`); where they always do, the button goes round
  the table, and a next hand that is refused changes nothing.

  A save that adds a seat strands the session at the last seat of the table
  (`added_seat_refuses`).
-/

import OpenFelt.Trainer.HandsGoOn

namespace OpenFelt.Trainer

open Betting MultiwayHand

/-! ## When a hand can be dealt -/

namespace Session

variable (s : Session)

/-- The chips the next hand would be dealt. -/
def nextChips : Nat := (s.hand.tableSize.seats.map fun p => (s.hand.seat p).stack + s.rebuy p).sum

/-- The settings put the next button where the table does. -/
def Turns : Prop :=
  (s.hand.button.val + 1 < s.hand.tableSize.get ∧ s.hand.button.val + 1 < s.settings.seats) ∨
    (s.hand.button.val + 1 = s.hand.tableSize.get ∧ s.settings.seats ∣ s.hand.tableSize.get)

instance : Decidable s.Turns := inferInstanceAs (Decidable (_ ∨ _))

/-- The next hand's button is the next seat of the table, and its chips fit together. -/
def Dealable : Prop := s.Turns ∧ s.nextChips ≤ u32Max

instance : Decidable s.Dealable := inferInstanceAs (Decidable (_ ∧ _))

/-- The next hand is dealt: one seat on, each seat with its stack, a busted opponent with its rebuy. -/
def DealsNext (deck : Shuffle) : Prop :=
  ∃ hand, s.nextHand deck = (.ok (), s.dealt hand) ∧ hand.tableSize = s.hand.tableSize ∧
    hand.button = seatWrapped s.hand.tableSize s.hand.button 1 ∧
    ∀ p ∈ s.hand.tableSize.seats, (hand.seat p).stack + (hand.seat p).handContribution = (s.hand.seat p).stack + s.rebuy p

end Session

section deals
variable {s : Session} {P : HandConfig → Prop} {deck : Shuffle}

/-- Dividing by the seats of the settings or by those of the table gives one seat just when the settings turn with the table. -/
theorem turns_iff {button size seats : Nat} (hbutton : button < size) (hseats : 0 < seats) :
    (button + 1) % seats = (button + 1) % size ↔
      (button + 1 < size ∧ button + 1 < seats) ∨ (button + 1 = size ∧ seats ∣ size) := by
  rcases Nat.lt_or_ge (button + 1) size with hlt | hge
  · rw [Nat.mod_eq_of_lt hlt]
    constructor
    · intro he
      have := Nat.mod_lt (button + 1) hseats
      exact Or.inl ⟨hlt, by omega⟩
    · rintro (⟨_, h⟩ | ⟨h, _⟩)
      · exact Nat.mod_eq_of_lt h
      · omega
  · obtain rfl : button + 1 = size := by omega
    rw [Nat.mod_self]
    constructor
    · intro he
      exact Or.inr ⟨rfl, Nat.dvd_of_mod_eq_zero he⟩
    · rintro (⟨h, _⟩ | ⟨_, h⟩)
      · omega
      · exact Nat.mod_eq_zero_of_dvd h

theorem AtTable.seats_pos (ht : AtTable s) : 0 < s.settings.seats ∧ s.settings.seats ≤ maxTableSeats := by
  have hseats := Settings.blinds_of_valid ht.settings
  have hmax : maxTableSeats = 9 := rfl
  omega

/-- Validated settings always name a seat. -/
theorem AtTable.nextButton (ht : AtTable s) :
    ∃ button, s.nextButton = some button ∧ button.val = (s.hand.button.val + 1) % s.settings.seats := by
  obtain ⟨hpos, hmax⟩ := ht.seats_pos
  have hlt : (s.hand.button.val + 1) % s.settings.seats < maxTableSeats := (Nat.mod_lt _ hpos).trans_le hmax
  refine ⟨⟨_, hlt⟩, ?_, rfl⟩
  simp only [Session.nextButton, hlt, dif_pos]

theorem AtTable.turns (ht : AtTable s) {button : SeatId} (hbutton : button.val = (s.hand.button.val + 1) % s.settings.seats) :
    s.Turns ↔ button = seatWrapped s.hand.tableSize s.hand.button 1 := by
  rw [Session.Turns, ← turns_iff ht.button ht.seats_pos.1, ← hbutton, Fin.ext_iff]
  rfl

/-- A rebuy leaves no seat without chips. -/
theorem AtTable.chips_pos (ht : AtTable s) (hready : s.ready = true) {p : SeatId} : 0 < (s.hand.seat p).stack + s.rebuy p := by
  obtain ⟨_, _, hsmall, hbig, _⟩ := Settings.blinds_of_valid ht.settings
  simp only [Session.ready, Bool.and_eq_true, decide_eq_true_eq] at hready
  by_cases hp : p = hero
  · subst hp
    exact Nat.lt_of_lt_of_le hready.2 (Nat.le_add_right _ _)
  · unfold Session.rebuy
    by_cases hzero : (s.hand.seat p).stack = 0
    · rw [if_pos ⟨hp, hzero⟩]
      omega
    · omega

/-- The stacks a hand is dealt are those its configuration gives. -/
theorem dealt_chips {c : HandConfig} {stack : SeatId → Nat} {hand : MultiwayHand} {p : SeatId} (hf : c.Full stack)
    (hdeck : c.deck.Shuffled) (hb : c.build = .ok hand) (hp : p.val < c.tableSize.get) :
    (hand.seat p).stack + (hand.seat p).handContribution = stack p :=
  ((build_cases hdeck hb).1.held p).trans (hf.start hp)

/-- A session ready for a next hand is dealt it just when the hand is dealable. -/
theorem Rests.deals_iff (hr : Rests P s) (hready : s.ready = true) (deck : Shuffle) : s.DealsNext deck ↔ s.Dealable := by
  obtain ⟨button, hbutton, hval⟩ := hr.table.nextButton
  have hfull := nextConfig_full hr.table button deck
  have hcases := nextHand_cases s deck
  rcases hcases with ⟨hno, _⟩ | ⟨_, ⟨hnone, _⟩ | ⟨button', hsome, hbuilds⟩⟩
  · rw [hready] at hno
    cases hno
  · rw [hbutton] at hnone
    cases hnone
  obtain rfl : button = button' := Option.some.inj (hbutton.symm.trans hsome)
  constructor
  · rintro ⟨hand, he, _, hwrapped, _⟩
    rcases hbuilds with ⟨error, _, he'⟩ | ⟨hand', hbuild, he'⟩
    · rw [he'] at he
      cases he
    obtain rfl : hand' = hand := by
      have := congrArg (fun r => r.2.hand) (he'.symm.trans he)
      exact this
    have hkept := (dealt_plays hr.table hbuild).kept
    have hmine : hand'.button = button := hkept.button
    refine ⟨(hr.table.turns hval).mpr (hmine.symm.trans hwrapped), ?_⟩
    have hd := build_built hbuild
    obtain ⟨_, _, _, _, _, _, hbuilt⟩ := hd
    have hdealt := (hbuilt.dealtIn deck.property).1
    have hfits := hdealt.fits
    rw [hdealt.total, hfull.chips] at hfits
    exact hfits
  · rintro ⟨hturns, hfits⟩
    have hwrapped := (hr.table.turns hval).mp hturns
    have hinside : button.val < s.hand.tableSize.get := by
      rw [hwrapped]
      exact Nat.mod_lt _ s.hand.tableSize.pos
    obtain ⟨hand', hok⟩ := hfull.builds hr.table.blinds hinside (fun p _ => hr.table.chips_pos hready) hfits
    rcases hbuilds with ⟨error, herror, _⟩ | ⟨hand, hbuild, he⟩
    · rw [hok] at herror
      cases herror
    have hkept := (dealt_plays hr.table hbuild).kept
    have hmine : hand.button = button := hkept.button
    refine ⟨hand, he, hkept.tableSize, hmine.trans hwrapped, fun p hp => ?_⟩
    exact dealt_chips hfull deck.property hbuild (s.hand.tableSize.mem_seats.mp hp)

/-- Where the hand is dealable a refusal comes before anything is written. -/
theorem Rests.refusal (hr : Rests P s) (hdealable : s.ready = true → s.Dealable) {error : SessionError}
    (herror : (s.nextHand deck).1 = .error error) : (s.nextHand deck).2 = s := by
  cases hready : s.ready with
  | false =>
    rcases nextHand_cases s deck with ⟨_, _, he⟩ | ⟨hyes, _⟩
    · rw [he]
    · rw [hready] at hyes
      cases hyes
  | true =>
    obtain ⟨hand, he, _⟩ := (hr.deals_iff hready deck).mpr (hdealable hready)
    rw [he] at herror
    cases herror

end deals

/-! ## The button goes round -/

section rounds
variable {localFeedback : Decision → Feedback} {s : Session} {P : HandConfig → Prop} {op : SessionOp} {ops : List SessionOp}

/-- The call leaves the hand's number, its button and its table. -/
structure SameHand (s s' : Session) : Prop where
  handId : s'.handId = s.handId
  button : s'.hand.button = s.hand.button
  tableSize : s'.hand.tableSize = s.hand.tableSize

theorem SameHand.trans {s₁ s₂ s₃ : Session} (h : SameHand s₁ s₂) (h' : SameHand s₂ s₃) : SameHand s₁ s₃ :=
  ⟨h'.handId.trans h.handId, h'.button.trans h.button, h'.tableSize.trans h.tableSize⟩

theorem settle_same (s : Session) : SameHand s s.settle := by
  rcases settle_cases s with ⟨he, _⟩ | ⟨_, _, _, _, he⟩
  · rw [he]
    exact ⟨rfl, rfl, rfl⟩
  · rw [he]
    exact ⟨rfl, rfl, rfl⟩

theorem played_same (s' : Session) {command : SeatCommand} (hr : Rests P s) (hv : s.hand.validateCommand command = .ok ())
    (hhand : s'.hand = (s.hand.applyCommand command).2) (hopening : s'.openingHeroStack = s.openingHeroStack)
    (hsettled : s'.settled = s.settled) (hid : s'.handId = s.handId) : SameHand s s' := by
  obtain ⟨c, stack, start, commands, hp, hp', _⟩ := hr.stands.played hv hhand hopening hsettled
  exact ⟨hid, hp'.kept.button.trans hp.kept.button.symm, hp'.kept.tableSize.trans hp.kept.tableSize.symm⟩

theorem submit_same {action : Action} (hr : Rests P s) : SameHand s (s.submit localFeedback action).2 := by
  rcases submit_cases localFeedback s action with ⟨_, he⟩ | ⟨o, _, _, hv, he⟩
  · rw [he]
    exact ⟨rfl, rfl, rfl⟩
  · rw [he]
    exact played_same _ hr hv rfl rfl rfl rfl

theorem stepBot_same {draws : Draws} (hr : Rests P s) : SameHand s (s.stepBot draws).2 := by
  rcases stepBot_cases s draws with ⟨_, _, he⟩ | ⟨p, o, bot, _, _, _, _, _, hv, he⟩
  · rw [he]
    exact ⟨rfl, rfl, rfl⟩
  · rw [he]
    exact (played_same (s.botPlayed ⟨p, bot.choose draws o⟩) hr hv rfl rfl rfl rfl).trans (settle_same _)

theorem continueHand_same (s : Session) : SameHand s s.continueHand := by
  have h := settle_same s.unpaused
  exact ⟨h.handId, h.button, h.tableSize⟩

theorem saveSettings_same {settings : Settings} : SameHand s (s.saveSettings settings) := by
  unfold Session.saveSettings
  dsimp only
  split
  · have h := continueHand_same { s with settings := settings }
    exact ⟨h.handId, h.button, h.tableSize⟩
  · exact ⟨rfl, rfl, rfl⟩

/-- Only a next hand changes them. -/
theorem Rests.step_same (localFeedback : Decision → Feedback) (hr : Rests P s) (hin : op.withinHand = true) :
    SameHand s (op.apply localFeedback s) := by
  cases op with
  | submit action => exact submit_same hr
  | continueHand => exact continueHand_same s
  | stepBot draws => exact stepBot_same hr
  | topUp =>
    rcases topUp_cases s with ⟨_, _, he⟩ | ⟨_, _, _, he⟩
    · exact ⟨by rw [SessionOp.apply, he], by rw [SessionOp.apply, he], by rw [SessionOp.apply, he]⟩
    · rw [SessionOp.apply, he]
      exact ⟨rfl, rfl, rfl⟩
  | withdraw amount =>
    rcases withdraw_cases s amount with ⟨_, _, he⟩ | ⟨_, _, he⟩
    · exact ⟨by rw [SessionOp.apply, he], by rw [SessionOp.apply, he], by rw [SessionOp.apply, he]⟩
    · rw [SessionOp.apply, he]
      exact ⟨rfl, rfl, rfl⟩
  | nextHand deck => cases hin
  | saveSettings settings =>
    rw [SessionOp.apply]
    split
    · exact saveSettings_same
    · exact ⟨rfl, rfl, rfl⟩
  | solverFeedback feedback =>
    obtain ⟨decisions, he⟩ := recordSolverFeedback_eq s feedback
    rw [SessionOp.apply, he]
    exact ⟨rfl, rfl, rfl⟩
  | reviewFeedback feedback =>
    obtain ⟨decisions, ready, he⟩ := recordReviewFeedback_eq s feedback
    rw [SessionOp.apply, he]
    exact ⟨rfl, rfl, rfl⟩

/-- Hands are numbered one after the other. -/
theorem Rests.step_handId (localFeedback : Decision → Feedback) (op : SessionOp) (hr : Rests P s) :
    (op.apply localFeedback s).handId ≤ s.handId + 1 ∧
    s.handId ≤ (op.apply localFeedback s).handId := by
  cases hin : op.withinHand with
  | true =>
    have hsame := (hr.step_same localFeedback hin).handId
    omega
  | false =>
    cases op with
    | nextHand deck =>
      rcases nextHand_cases s deck with ⟨_, _, he⟩ | ⟨_, ⟨_, _, he⟩ | ⟨_, _, ⟨_, _, he⟩ | ⟨_, _, he⟩⟩⟩
      all_goals
        rw [SessionOp.apply, he]
        simp [Session.dealt, Session.rebought]
    | _ => cases hin

/-- The button a run has brought to the seat its hand's number says. -/
structure Rotates (size : TableSize) (s : Session) : Prop where
  table : s.hand.tableSize = size
  numbered : 1 ≤ s.handId
  button : s.hand.button.val = (s.handId - 1) % size.get

theorem Rotates.same {s' : Session} {table : TableSize} (h : Rotates table s) (hsame : SameHand s s') : Rotates table s' :=
  ⟨hsame.tableSize.trans h.table, by rw [hsame.handId]; exact h.numbered, by rw [hsame.button, hsame.handId]; exact h.button⟩

theorem Rotates.step {table : TableSize} (h : Rotates table s) (hr : Rests P s)
    (hdealable : ∀ deck, op = .nextHand deck → s.ready = true → s.Dealable) : Rotates table (op.apply localFeedback s) := by
  cases hin : op.withinHand with
  | true => exact h.same (hr.step_same localFeedback hin)
  | false =>
    cases op with
    | nextHand deck =>
      cases hready : s.ready with
      | false =>
        rcases nextHand_cases s deck with ⟨_, _, he⟩ | ⟨hyes, _⟩
        · rw [SessionOp.apply, he]
          exact h
        · rw [hready] at hyes
          cases hyes
      | true =>
        obtain ⟨hand, he, hsize, hbutton, _⟩ := (hr.deals_iff hready deck).mpr (hdealable deck rfl hready)
        rw [SessionOp.apply, he]
        refine ⟨hsize.trans h.table, Nat.le_add_left 1 _, ?_⟩
        show hand.button.val = (s.handId + 1 - 1) % table.get
        have hval : hand.button.val = (s.hand.button.val + 1) % s.hand.tableSize.get := congrArg Fin.val hbutton
        have hid : s.handId + 1 - 1 = s.handId - 1 + 1 := by have := h.numbered; omega
        rw [hval, h.table, h.button, hid, Nat.mod_add_mod]
    | _ => cases hin

theorem Rests.run_any (localFeedback : Decision → Feedback) (hr : Rests (fun _ => True) s) (ops : List SessionOp) :
    Rests (fun _ => True) (s.run localFeedback ops) := hr.run fun _ _ _ _ _ _ _ => trivial

theorem Rotates.run {table : TableSize} (h : Rotates table s) (hr : Rests (fun _ => True) s)
    (hdeals : s.AtDeals localFeedback (fun s _ => s.ready = true → s.Dealable) ops) :
    Rotates table (s.run localFeedback ops) := by
  induction ops generalizing s with
  | nil => exact h
  | cons op ops ih =>
    refine ih (h.step hr fun deck he => ?_) (hr.step fun _ _ _ _ _ => trivial) hdeals.tail
    subst he
    exact hdeals.head

/-- A run passes through every number between the first and the last of its hands. -/
theorem Rests.run_between {n : Nat} (localFeedback : Decision → Feedback) (ops : List SessionOp) (hr : Rests (fun _ => True) s)
    (hlow : s.handId ≤ n)
    (hhigh : n ≤ (s.run localFeedback ops).handId) :
    ∃ mid rest, ops = mid ++ rest ∧ (s.run localFeedback mid).handId = n := by
  induction ops generalizing s with
  | nil => exact ⟨[], [], rfl, Nat.le_antisymm hlow hhigh⟩
  | cons op ops ih =>
    by_cases he : s.handId = n
    · exact ⟨[], op :: ops, rfl, he⟩
    · have hstep := (hr.step_handId localFeedback op).1
      have hnext : Rests (fun _ => True) (op.apply localFeedback s) := hr.step fun _ _ _ _ _ => trivial
      obtain ⟨mid, rest, hops, hmid⟩ := ih hnext (by omega) hhigh
      exact ⟨op :: mid, rest, by rw [hops, List.cons_append], hmid⟩

theorem Session.AtDeals.front {Q : Session → Shuffle → Prop} {before after : List SessionOp}
    (h : s.AtDeals localFeedback Q (before ++ after)) : s.AtDeals localFeedback Q before := by
  intro first deck last he
  exact h first deck (last ++ after) (by rw [he, List.append_assoc, List.cons_append])

end rounds

section claim
variable {localFeedback : Decision → Feedback} {settings : Settings} {deck : Shuffle} {id : String} {s : Session}
  {table : TableSize}

theorem Opened.rotates (ho : Opened settings deck table s) : Rotates table s := by
  have hbutton : s.hand.button = hero := ho.plays.kept.button
  refine ⟨ho.plays.kept.tableSize, by rw [ho.handId], ?_⟩
  rw [ho.handId, hbutton, Nat.sub_self, Nat.zero_mod]
  rfl

/-- The hands of a session follow each other: ready for one it is dealt it just when it is
    dealable; a refusal changes nothing; and as many hands as the table has seats bring the
    button to every one of them. -/
theorem next_hand_deals (hnew : Session.new settings deck id = .ok s) (ops : List SessionOp)
    (hdeals : s.AtDeals localFeedback (fun s _ => s.ready = true → s.Dealable) ops) :
    ((s.run localFeedback ops).ready = true →
      (∀ p ∈ (s.run localFeedback ops).hand.occupiedSeats, ((s.run localFeedback ops).hand.seat p).handContribution = 0) ∧
      ∀ next, (s.run localFeedback ops).DealsNext next ↔ (s.run localFeedback ops).Dealable) ∧
    (((s.run localFeedback ops).ready = true → (s.run localFeedback ops).Dealable) → ∀ next error,
      ((s.run localFeedback ops).nextHand next).1 = .error error →
        ((s.run localFeedback ops).nextHand next).2 = s.run localFeedback ops) ∧
    ∀ before after p, ops = before ++ after → p ∈ (s.run localFeedback ops).hand.tableSize.seats →
      (s.run localFeedback before).handId + (s.run localFeedback ops).hand.tableSize.get ≤ (s.run localFeedback ops).handId + 1 →
      ∃ mid rest, after = mid ++ rest ∧ (s.run localFeedback (before ++ mid)).hand.button = p := by
  obtain ⟨table, ho⟩ := new_opened hnew
  have hany : Rests (fun _ => True) s := ho.rests trivial
  have hr := hany.run_any localFeedback ops
  have hrotates := ho.rotates.run hany hdeals
  refine ⟨fun hready => ⟨?_, fun next => hr.deals_iff hready next⟩, fun hdealable next error => hr.refusal hdealable, ?_⟩
  · have hf : (s.run localFeedback ops).finished = true := by
      simp only [Session.ready, Bool.and_eq_true] at hready
      exact hready.1
    exact (hr.between hf).pot
  · intro before after p hops hp hlong
    rw [hrotates.table] at hp hlong
    have hp := table.mem_seats.mp hp
    have hfirst := hany.run_any localFeedback before
    have hbefore : s.AtDeals localFeedback (fun s _ => s.ready = true → s.Dealable) before := by
      rw [hops] at hdeals
      exact hdeals.front
    have hnumbered := (ho.rotates.run hany hbefore).numbered
    -- the next number that puts the button at `p`
    obtain ⟨n, hlow, hhigh, hn⟩ : ∃ n, (s.run localFeedback before).handId ≤ n ∧
        n + 1 ≤ (s.run localFeedback before).handId + table.get ∧ (n - 1) % table.get = p.val := by
      generalize (s.run localFeedback before).handId = first at hnumbered
      have hpos := table.pos
      refine ⟨first + (p.val + table.get - (first - 1) % table.get) % table.get, Nat.le_add_right _ _, ?_, ?_⟩
      · have := Nat.mod_lt (p.val + table.get - (first - 1) % table.get) hpos
        omega
      · have hlt := Nat.mod_lt (first - 1) hpos
        have hsub : first + (p.val + table.get - (first - 1) % table.get) % table.get - 1 =
            (first - 1) + (p.val + table.get - (first - 1) % table.get) % table.get := by omega
        rw [hsub, Nat.add_mod_mod, ← Nat.mod_add_mod, ← Nat.add_sub_assoc (by omega),
          Nat.add_sub_cancel_left, Nat.add_mod_right, Nat.mod_eq_of_lt hp]
    have hrun : s.run localFeedback ops = (s.run localFeedback before).run localFeedback after := by
      rw [hops, Session.run_append]
    obtain ⟨mid, rest, hafter, hmid⟩ := hfirst.run_between localFeedback after hlow (by rw [← hrun]; omega)
    refine ⟨mid, rest, hafter, ?_⟩
    have hprefix : s.AtDeals localFeedback (fun s _ => s.ready = true → s.Dealable) (before ++ mid) := by
      rw [hops, hafter, ← List.append_assoc] at hdeals
      exact hdeals.front
    have hthere := (ho.rotates.run hany hprefix).button
    rw [Session.run_append, hmid, hn] at hthere
    rw [Session.run_append]
    exact Fin.ext hthere

end claim

/-! ## Two hands of two -/

/-- The hero folds the first hand, the opponent the second. -/
def twoFolds : List SessionOp :=
  [.submit .fold, .continueHand, .nextHand newDeck, .stepBot ⟨false, false, false⟩]

/-- Every hand of the run above is dealable, and so is the third. -/
theorem next_hand_deals_heads_up : ∃ s, Session.new headsUp newDeck "s" = .ok s ∧
    (s.run uncertain twoFolds).ready = true ∧ (s.run uncertain twoFolds).Dealable ∧
    (s.run uncertain twoFolds).DealsNext newDeck := by
  have hrun : (Session.new headsUp newDeck "s").toOption.map (fun s =>
      (decide ((s.run uncertain (twoFolds.take 2)).Dealable), (s.run uncertain twoFolds).ready,
        decide ((s.run uncertain twoFolds).Dealable))) = some (true, true, true) := by decide +kernel
  obtain ⟨s, hnew⟩ := headsUp_opens
  rw [hnew] at hrun
  simp only [Except.toOption, Option.map_some, Option.some.injEq, Prod.mk.injEq, decide_eq_true_eq] at hrun
  obtain ⟨hsecond, hready, hthird⟩ := hrun
  refine ⟨s, hnew, hready, hthird, ?_⟩
  have hall : s.AtDeals uncertain (fun s _ => s.ready = true → s.Dealable) twoFolds := by
    refine .cons (fun _ he => by cases he) (.cons (fun _ he => by cases he) (.cons ?_ (.cons (fun _ he => by cases he) .nil)))
    intro deck _ _
    exact hsecond
  exact (((next_hand_deals hnew twoFolds hall).1 hready).2 newDeck).mpr hthird

/-- Settings with a third seat put the button off a table of two: the next hand is refused,
    with the hero's opening stack already written over. -/
theorem added_seat_refuses : ∃ s, Session.new headsUp newDeck "s" = .ok s ∧
    (s.run uncertain (twoFolds ++ [.saveSettings { headsUp with seats := 3 }])).ready = true ∧
    ¬ (s.run uncertain (twoFolds ++ [.saveSettings { headsUp with seats := 3 }])).DealsNext newDeck ∧
    (s.run uncertain (twoFolds ++ [.saveSettings { headsUp with seats := 3 }])).openingHeroStack = 199 ∧
    ((s.run uncertain (twoFolds ++ [.saveSettings { headsUp with seats := 3 }])).nextHand newDeck).2.openingHeroStack = 200 := by
  have hrun : (Session.new headsUp newDeck "s").toOption.map (fun s =>
      let s := s.run uncertain (twoFolds ++ [.saveSettings { headsUp with seats := 3 }])
      (s.ready, (s.nextHand newDeck).1.isOk, s.openingHeroStack, (s.nextHand newDeck).2.openingHeroStack)) =
        some (true, false, 199, 200) := by decide +kernel
  obtain ⟨s, hnew⟩ := headsUp_opens
  rw [hnew] at hrun
  simp only [Except.toOption, Option.map_some, Option.some.injEq, Prod.mk.injEq] at hrun
  obtain ⟨hready, hrefused, hbefore, hafter⟩ := hrun
  refine ⟨s, hnew, hready, ?_, hbefore, hafter⟩
  rintro ⟨hand, he, _⟩
  rw [he] at hrefused
  cases hrefused

end OpenFelt.Trainer
