/-
  OpenFelt.Trainer.Bankroll — a session's cash accounts.

  A tally beside the session keeps what each seat was dealt and what its hands have won or
  lost it. Proved (`accounts_balance`): between hands every stack is the opening stack, the
  seat's results and its recorded cash together, the hero's results are the session's
  profit, each hand is counted once, and a refused cash movement changes nothing.

  A busted opponent's rebuy is recorded before the next hand is built, so a next hand that
  is refused must have none to record (`KeepsRebuys`, `lost_rebuy_unbalances`).
-/

import OpenFelt.Trainer.NextHands

namespace OpenFelt.Trainer

open Betting MultiwayHand

/-! ## The tally -/

/-- What the seats were dealt for the hand they play, and what the hands counted so far came to. -/
structure Tally where
  dealt : SeatId → Nat
  results : SeatId → Int

/-- A hand is tallied when it is counted, and its stacks are noted when it is dealt. -/
def Tally.after (t : Tally) (s s' : Session) : Tally where
  dealt p := if s'.handId = s.handId then t.dealt p else (s'.hand.seat p).stack + (s'.hand.seat p).handContribution
  results p := if s'.completedHands = s.completedHands then t.results p
    else t.results p + (((s'.hand.seat p).stack : Int) - t.dealt p)

namespace Session

/-- The tally of a session whose first hand has just been dealt. -/
def firstTally (s : Session) : Tally where
  dealt p := (s.hand.seat p).stack + (s.hand.seat p).handContribution
  results _ := 0

def tally (localFeedback : Decision → Feedback) : Session → Tally → List SessionOp → Tally
  | _, t, [] => t
  | s, t, op :: ops => (op.apply localFeedback s).tally localFeedback (t.after s (op.apply localFeedback s)) ops

variable (s : Session)

def addedTo (p : SeatId) : Nat := ((s.cashEvents.filter (·.seat = p)).map (·.added)).sum

def withdrawnFrom (p : SeatId) : Nat := ((s.cashEvents.filter (·.seat = p)).map (·.withdrawn)).sum

/-- What a seat has: its stack once the hand is counted, what it was dealt before that. -/
def holding (t : Tally) (p : SeatId) : Nat := if s.settled then (s.hand.seat p).stack else t.dealt p

/-- A next hand that would be refused has no rebuy to record. -/
def KeepsRebuys : Prop :=
  ((s.hand.button.val + 1) % s.settings.seats < s.hand.tableSize.get ∧ s.nextChips ≤ u32Max) ∨ s.rebuys = []

instance : Decidable s.KeepsRebuys := inferInstanceAs (Decidable (_ ∨ _))

end Session

/-- The accounts between calls; in a hand they are those the hand was dealt with. -/
structure Booked (initial : Nat) (t : Tally) (s : Session) : Prop where
  held : ∀ p ∈ s.hand.tableSize.seats, (s.holding t p : Int) = initial + t.results p + s.addedTo p - s.withdrawnFrom p
  opening : s.settled = false → s.openingHeroStack = t.dealt hero
  profit : s.sessionProfit = t.results hero
  own : ∀ p, p ≠ hero → s.withdrawnFrom p = 0
  completed : s.completedHands + (!s.settled).toNat = s.handId
  ready : s.replayReady.map (·.sequence) = List.range' 1 s.completedHands

section booked
variable {localFeedback : Decision → Feedback} {initial : Nat} {t : Tally} {s s' : Session} {P : HandConfig → Prop}
  {op : SessionOp} {ops : List SessionOp}

theorem Tally.after_same (hid : s'.handId = s.handId) (hcount : s'.completedHands = s.completedHands) : t.after s s' = t := by
  simp [Tally.after, hid, hcount]

/-- A call that neither counts nor deals a hand leaves the tally. -/
theorem Booked.kept (hb : Booked initial t s') (hid : s'.handId = s.handId) (hcount : s'.completedHands = s.completedHands) :
    Booked initial (t.after s s') s' := by
  rwa [Tally.after_same hid hcount]

/-- Calls that leave the accounts alone. -/
theorem Booked.same (s' : Session) (hb : Booked initial t s) (hstack : s.settled = true → s'.hand = s.hand)
    (hsize : s'.hand.tableSize = s.hand.tableSize) (hcash : s'.cashEvents = s.cashEvents)
    (hopening : s'.openingHeroStack = s.openingHeroStack) (hprofit : s'.sessionProfit = s.sessionProfit)
    (hsettled : s'.settled = s.settled) (hid : s'.handId = s.handId) (hcount : s'.completedHands = s.completedHands)
    (hready : s'.replayReady.map (·.sequence) = s.replayReady.map (·.sequence)) : Booked initial (t.after s s') s' := by
  rw [Tally.after_same hid hcount]
  have hholding : ∀ p, s'.holding t p = s.holding t p := by
    intro p
    unfold Session.holding
    rw [hsettled]
    cases hs : s.settled with
    | true => rw [hstack hs]
    | false => rfl
  refine ⟨fun p hp => ?_, fun hs => ?_, ?_, fun p hp => ?_, ?_, ?_⟩
  · rw [hholding, Session.addedTo, Session.withdrawnFrom, hcash]
    exact hb.held p (hsize ▸ hp)
  · rw [hopening]
    exact hb.opening (hsettled ▸ hs)
  · rw [hprofit]
    exact hb.profit
  · rw [Session.withdrawnFrom, hcash]
    exact hb.own p hp
  · rw [hcount, hsettled, hid]
    exact hb.completed
  · rw [hready, hcount]
    exact hb.ready

/-- Counting a hand books what each seat won or lost with it. -/
theorem Booked.counted {outcome : TableProjection} (hb : Booked initial t s) (hu : s.settled = false) :
    Booked initial (t.after s (s.counted outcome)) (s.counted outcome) := by
  have hresults : ∀ p, (t.after s (s.counted outcome)).results p = t.results p + (((s.hand.seat p).stack : Int) - t.dealt p) :=
    fun p => if_neg (Nat.succ_ne_self s.completedHands)
  have hcompleted := hb.completed
  rw [hu] at hcompleted
  refine ⟨fun p hp => ?_, nofun, ?_, hb.own, hcompleted, ?_⟩
  · have hheld := hb.held p hp
    rw [show s.holding t p = t.dealt p from by rw [Session.holding, hu]; rfl] at hheld
    rw [hresults, show (s.counted outcome).holding _ p = (s.hand.seat p).stack from rfl]
    show ((s.hand.seat p).stack : Int) = _ + _ + s.addedTo p - s.withdrawnFrom p
    omega
  · rw [hresults, ← hb.profit, ← hb.opening hu]
    rfl
  · have hready : (s.counted outcome).replayReady.map (·.sequence) = s.replayReady.map (·.sequence) ++ [s.handId] := by
      simp only [Session.counted, List.map_append, List.map_cons, List.map_nil]
    have hid : s.handId = 1 + 1 * s.completedHands := by
      rw [← hcompleted, Nat.one_mul, Nat.add_comm]
      rfl
    rw [hready, hb.ready, hid, ← List.range'_concat]
    rfl

theorem Booked.settle (hb : Booked initial t s) : Booked initial (t.after s s.settle) s.settle := by
  rcases settle_cases s with ⟨he, _⟩ | ⟨outcome, _, hu, _, he⟩
  · rw [he]
    exact hb.same _ (fun _ => rfl) rfl rfl rfl rfl rfl rfl rfl rfl
  · rw [he]
    exact hb.counted hu

/-- A command changes no account of a hand that is not counted yet. -/
theorem Booked.played {command : SeatCommand} (s' : Session) (hb : Booked initial t s) (hr : Rests P s)
    (hv : s.hand.validateCommand command = .ok ()) (hhand : s'.hand = (s.hand.applyCommand command).2)
    (hcash : s'.cashEvents = s.cashEvents) (hopening : s'.openingHeroStack = s.openingHeroStack)
    (hprofit : s'.sessionProfit = s.sessionProfit) (hsettled : s'.settled = s.settled) (hid : s'.handId = s.handId)
    (hcount : s'.completedHands = s.completedHands) (hready : s'.replayReady = s.replayReady) : Booked initial t s' := by
  have hsame := played_same s' hr hv hhand hopening hsettled hid
  obtain ⟨_, _, _, _, hp, _, _⟩ := hr.stands.played hv hhand hopening hsettled
  have hbooked := hb.same s' (fun hs => by rw [hp.unsettled] at hs; cases hs) hsame.tableSize hcash hopening hprofit
    hsettled hid hcount (by rw [hready])
  rwa [Tally.after_same hid hcount] at hbooked

theorem Booked.continueHand (hb : Booked initial t s) : Booked initial (t.after s s.continueHand) s.continueHand := by
  have hpaused : Booked initial t s.unpaused := ⟨hb.held, hb.opening, hb.profit, hb.own, hb.completed, hb.ready⟩
  exact hpaused.settle

theorem Booked.submit {action : Action} (hb : Booked initial t s) (hr : Rests P s) :
    Booked initial (t.after s (s.submit localFeedback action).2) (s.submit localFeedback action).2 := by
  rcases submit_cases localFeedback s action with ⟨_, he⟩ | ⟨o, _, _, hv, he⟩
  · rw [he]
    exact hb.kept rfl rfl
  · rw [he]
    have hbooked := hb.played (s.decided localFeedback ⟨1, o, action, Facts.calculate o⟩) hr hv rfl rfl rfl rfl rfl rfl rfl rfl
    exact hbooked.kept rfl rfl

theorem Booked.stepBot {draws : Draws} (hb : Booked initial t s) (hr : Rests P s) :
    Booked initial (t.after s (s.stepBot draws).2) (s.stepBot draws).2 := by
  rcases stepBot_cases s draws with ⟨_, _, he⟩ | ⟨p, o, bot, _, _, _, _, _, hv, he⟩
  · rw [he]
    exact hb.kept rfl rfl
  · rw [he]
    have hbooked := hb.played (s.botPlayed ⟨p, bot.choose draws o⟩) hr hv rfl rfl rfl rfl rfl rfl rfl rfl
    exact hbooked.settle

/-! ## Cash -/

theorem addedTo_append {s' : Session} {p : SeatId} (s : Session) (events : List CashEvent)
    (h : s'.cashEvents = s.cashEvents ++ events) :
    s'.addedTo p = s.addedTo p + ((events.filter (·.seat = p)).map (·.added)).sum := by
  rw [Session.addedTo, Session.addedTo, h, List.filter_append, List.map_append, List.sum_append]

theorem withdrawnFrom_append {s' : Session} {p : SeatId} (s : Session) (events : List CashEvent)
    (h : s'.cashEvents = s.cashEvents ++ events) :
    s'.withdrawnFrom p = s.withdrawnFrom p + ((events.filter (·.seat = p)).map (·.withdrawn)).sum := by
  rw [Session.withdrawnFrom, Session.withdrawnFrom, h, List.filter_append, List.map_append, List.sum_append]

/-- The hero's chips move by what is recorded. -/
theorem Booked.moved {n : Nat} {events : List CashEvent} (hb : Booked initial t s) (hr : Rests P s) (hf : s.finished = true)
    (hseat : ∀ event ∈ events, event.seat = hero)
    (hsum : n + (events.map (·.withdrawn)).sum = s.heroStack + (events.map (·.added)).sum) :
    Booked initial (t.after s (s.moved n events)) (s.moved n events) := by
  have hsettled := hr.counted hf
  have hown : events.filter (·.seat = hero) = events := List.filter_eq_self.mpr fun event he => decide_eq_true (hseat event he)
  have hothers : ∀ p, p ≠ hero → events.filter (·.seat = p) = [] := by
    intro p hp
    refine List.filter_eq_nil_iff.mpr fun event he => ?_
    rw [hseat event he, decide_eq_true_eq]
    exact Ne.symm hp
  have hstack : ∀ s : Session, s.settled = true → ∀ p, s.holding t p = (s.hand.seat p).stack := by
    intro s hs p
    rw [Session.holding, hs]
    rfl
  refine Booked.kept (s := s) ⟨fun p hp => ?_, fun hu => ?_, hb.profit, fun p hp => ?_, hb.completed, hb.ready⟩ rfl rfl
  · have hheld := hb.held p hp
    rw [hstack s hsettled] at hheld
    rw [hstack (s.moved n events) hsettled, addedTo_append s events rfl, withdrawnFrom_append s events rfl]
    by_cases hp' : p = hero
    · subst hp'
      rw [seat_moved_hero hr.table, hown]
      have hhero : s.heroStack = (s.hand.seat hero).stack := rfl
      dsimp only
      omega
    · rw [seat_moved_ne hp', hothers p hp']
      simpa using hheld
  · rw [show (s.moved n events).settled = s.settled from rfl, hsettled] at hu
    cases hu
  · rw [withdrawnFrom_append s events rfl, hothers p hp, hb.own p hp]
    rfl

theorem Booked.topUp (hb : Booked initial t s) (hr : Rests P s) : Booked initial (t.after s s.topUp.2) s.topUp.2 := by
  rcases topUp_cases s with ⟨_, _, he⟩ | ⟨hf, added, _, he⟩
  · rw [he]
    exact hb.kept rfl rfl
  · rw [he]
    refine hb.moved hr hf ?_ ?_
    · intro event hevent
      split at hevent
      · rw [List.mem_singleton.mp hevent]
      · cases hevent
    · by_cases hadded : 0 < added
      · simp [hadded]
      · have hzero : added = 0 := by omega
        simp [hzero]

theorem Booked.withdraw {amount : Nat} (hb : Booked initial t s) (hr : Rests P s) :
    Booked initial (t.after s (s.withdraw amount).2) (s.withdraw amount).2 := by
  rcases withdraw_cases s amount with ⟨_, _, he⟩ | ⟨hf, hle, he⟩
  · rw [he]
    exact hb.kept rfl rfl
  · rw [he]
    refine hb.moved hr hf ?_ ?_
    · intro event hevent
      rw [List.mem_singleton.mp hevent]
    · simp
      omega

/-! ## Rebuys -/

theorem rebuys_of (p : SeatId) (hp : p ∈ s.hand.occupiedSeats) :
    ((s.rebuys.filter (·.seat = p)).map (·.added)).sum = s.rebuy p := by
  have hone : ((s.hand.occupiedSeats.filter fun seat => 0 < s.rebuy seat).filter (· = p)) =
      if 0 < s.rebuy p then [p] else [] := by
    have hcount : s.hand.occupiedSeats.count p = 1 := List.count_eq_one_of_mem (nodup_occupiedSeats s.hand) hp
    rw [List.filter_comm, show (fun q => decide (q = p)) = (· == p) from funext fun q => (Bool.beq_eq_decide_eq q p).symm,
      List.filter_beq, hcount]
    simp only [List.replicate_one, List.filter_cons, List.filter_nil, decide_eq_true_eq]
  have hsame : s.rebuys.filter (·.seat = p) = ((s.hand.occupiedSeats.filter fun seat => 0 < s.rebuy seat).filter (· = p)).map
      fun seat => ⟨s.handId, seat, s.rebuy seat, 0⟩ := by
    rw [Session.rebuys, List.filter_map]
    rfl
  rw [hsame, hone]
  split
  · simp
  · simp
    omega

theorem rebuys_withdrawn (p : SeatId) : ((s.rebuys.filter (·.seat = p)).map (·.withdrawn)).sum = 0 := by
  refine List.sum_eq_zero_iff_forall_eq_nat.mpr fun n hn => ?_
  obtain ⟨event, hevent, rfl⟩ := List.mem_map.mp hn
  obtain ⟨seat, _, rfl⟩ := List.mem_map.mp (List.mem_filter.mp hevent).1
  rfl

/-- The next hand is dealt what its seats have, the rebuys with it. -/
theorem Booked.dealt {button : SeatId} {deck : Shuffle} {hand : MultiwayHand} (hb : Booked initial t s) (hr : Rests P s)
    (hf : s.finished = true) (hbuild : (s.nextConfig button deck).build = .ok hand) :
    Booked initial (t.after s (s.dealt hand)) (s.dealt hand) := by
  have hsettled := hr.counted hf
  have hp := dealt_plays hr.table hbuild
  have hsize : hand.tableSize = s.hand.tableSize := hp.kept.tableSize
  have hdealt : ∀ p, p.val < s.hand.tableSize.get →
      (t.after s (s.dealt hand)).dealt p = (s.hand.seat p).stack + s.rebuy p := by
    intro p hp
    have hchips := dealt_chips (nextConfig_full hr.table button deck) deck.property hbuild hp
    exact (if_neg (Nat.succ_ne_self s.handId)).trans hchips
  have hresults : (t.after s (s.dealt hand)).results = t.results := funext fun p => if_pos rfl
  refine ⟨fun p hp => ?_, fun _ => ?_, ?_, fun p hp => ?_, ?_, hb.ready⟩
  · rw [show (s.dealt hand).hand.tableSize = s.hand.tableSize from hsize] at hp
    have hlt := s.hand.tableSize.mem_seats.mp hp
    have hheld := hb.held p hp
    rw [Session.holding, hsettled, if_pos rfl] at hheld
    rw [show (s.dealt hand).holding (t.after s (s.dealt hand)) p = (t.after s (s.dealt hand)).dealt p from rfl, hdealt p hlt,
      hresults, addedTo_append s s.rebuys rfl, withdrawnFrom_append s s.rebuys rfl,
      rebuys_of p (hr.table.mem_seats.mpr hlt), rebuys_withdrawn]
    omega
  · rw [hdealt hero (hero_lt _), rebuy_hero]
    rfl
  · rw [hresults]
    exact hb.profit
  · rw [withdrawnFrom_append s s.rebuys rfl, rebuys_withdrawn, hb.own p hp]
  · have hcompleted := hb.completed
    rw [hsettled] at hcompleted
    show s.completedHands + 1 = s.handId + 1
    simpa using hcompleted

/-- A refused next hand with nothing to record leaves the accounts. -/
theorem Booked.rebought (hb : Booked initial t s) (hsettled : s.settled = true) (hnone : s.rebuys = []) :
    Booked initial (t.after s s.rebought) s.rebought := by
  have hcash : s.rebought.cashEvents = s.cashEvents := by
    show s.cashEvents ++ s.rebuys = s.cashEvents
    rw [hnone, List.append_nil]
  refine Booked.kept (s := s) ⟨fun p hp => ?_, fun hu => ?_, hb.profit, fun p hp => ?_, hb.completed, hb.ready⟩ rfl rfl
  · rw [Session.addedTo, Session.withdrawnFrom, hcash]
    exact hb.held p hp
  · rw [show s.rebought.settled = s.settled from rfl, hsettled] at hu
    cases hu
  · rw [Session.withdrawnFrom, hcash]
    exact hb.own p hp

theorem Booked.nextHand {deck : Shuffle} (hb : Booked initial t s) (hr : Rests P s)
    (hkeeps : s.ready = true → s.KeepsRebuys) : Booked initial (t.after s (s.nextHand deck).2) (s.nextHand deck).2 := by
  rcases nextHand_cases s deck with ⟨_, _, he⟩ | ⟨hready, hbutton⟩
  · rw [he]
    exact hb.kept rfl rfl
  have hf : s.finished = true := by
    simp only [Session.ready, Bool.and_eq_true] at hready
    exact hready.1
  rcases hbutton with ⟨_, _, he⟩ | ⟨button, hsome, ⟨error, herror, he⟩ | ⟨hand, hbuild, he⟩⟩
  · rw [he]
    exact hb.kept rfl rfl
  · rw [he]
    refine hb.rebought (hr.counted hf) ?_
    rcases hkeeps hready with ⟨hinside, hfits⟩ | hnone
    · -- the constructor has no reason left to refuse
      obtain ⟨button', hsome', hval⟩ := hr.table.nextButton
      obtain rfl : button = button' := Option.some.inj (hsome.symm.trans hsome')
      have hrefused := (nextConfig_full hr.table button deck).refused hr.table.blinds
          (fun p _ => hr.table.chips_pos hready) herror
      exact absurd ⟨by rw [show (s.nextConfig button deck).button = button from rfl, hval]; exact hinside, hfits⟩ hrefused
    · exact hnone
  · rw [he]
    exact hb.dealt hr hf hbuild

/-! ## Runs -/

theorem Booked.saveSettings {settings : Settings} (hb : Booked initial t s) :
    Booked initial (t.after s (s.saveSettings settings)) (s.saveSettings settings) := by
  have hkept : Booked initial t { s with settings := settings } :=
    ⟨hb.held, hb.opening, hb.profit, hb.own, hb.completed, hb.ready⟩
  unfold Session.saveSettings
  dsimp only
  split
  · exact hkept.continueHand
  · exact hkept.kept rfl rfl

theorem amendHands_sequences (feedback : Feedback) (hands : List CompletedHand) :
    (amendHands feedback hands).2.map (·.sequence) = hands.map (·.sequence) := by
  induction hands with
  | nil => rfl
  | cons hand hands ih =>
    unfold amendHands
    dsimp only
    split
    · rfl
    · rw [List.map_cons, List.map_cons, ih]

theorem Booked.reviewed {feedback : Feedback} (hb : Booked initial t s) :
    Booked initial (t.after s (s.recordReviewFeedback feedback).2) (s.recordReviewFeedback feedback).2 := by
  unfold Session.recordReviewFeedback
  dsimp only
  split
  · exact hb.same _ (fun _ => rfl) rfl rfl rfl rfl rfl rfl rfl rfl
  · exact hb.same _ (fun _ => rfl) rfl rfl rfl rfl rfl rfl rfl (amendHands_sequences feedback s.replayReady)

theorem Booked.step (hb : Booked initial t s) (hr : Rests P s)
    (hkeeps : ∀ deck, op = .nextHand deck → s.ready = true → s.KeepsRebuys) :
    Booked initial (t.after s (op.apply localFeedback s)) (op.apply localFeedback s) := by
  cases op with
  | submit action => exact hb.submit hr
  | continueHand => exact hb.continueHand
  | stepBot draws => exact hb.stepBot hr
  | topUp => exact hb.topUp hr
  | withdraw amount => exact hb.withdraw hr
  | nextHand deck => exact hb.nextHand hr (hkeeps deck rfl)
  | saveSettings settings =>
    rw [SessionOp.apply]
    split
    · exact hb.saveSettings
    · exact hb.kept rfl rfl
  | solverFeedback feedback =>
    obtain ⟨decisions, he⟩ := recordSolverFeedback_eq s feedback
    rw [SessionOp.apply, he]
    exact hb.same _ (fun _ => rfl) rfl rfl rfl rfl rfl rfl rfl rfl
  | reviewFeedback feedback => exact hb.reviewed

theorem Booked.run (hb : Booked initial t s) (hr : Rests (fun _ => True) s)
    (hkeeps : s.AtDeals localFeedback (fun s _ => s.ready = true → s.KeepsRebuys) ops) :
    Booked initial (s.tally localFeedback t ops) (s.run localFeedback ops) := by
  induction ops generalizing s t with
  | nil => exact hb
  | cons op ops ih =>
    refine ih (hb.step hr fun deck he => ?_) (hr.step fun _ _ _ _ _ => trivial) hkeeps.tail
    subst he
    exact hkeeps.head

end booked

/-! ## Between hands -/

/-- The cash of a session between hands: `initial` chips a seat to begin with. -/
structure Accounts (initial : Nat) (t : Tally) (s : Session) : Prop where
  hero : (s.heroStack : Int) = initial + s.sessionProfit + s.addedTo hero - s.withdrawnFrom hero
  bots : ∀ p ∈ s.hand.tableSize.seats, p ≠ Trainer.hero → ((s.hand.seat p).stack : Int) = initial + t.results p + s.addedTo p
  /-- Each hand counts once: in the profit, in the number of hands and among the hands to replay. -/
  profit : s.sessionProfit = t.results Trainer.hero
  completed : s.completedHands = s.handId
  replays : s.replayReady.map (·.sequence) = List.range' 1 s.handId

/-- Cash moves between hands only, no more of it than there is, and otherwise nothing changes. -/
structure RefusesCash (s : Session) : Prop where
  topUp : s.topUp.1.isOk = s.finished
  topUpKeeps : s.topUp.1.isOk = false → s.topUp.2 = s
  withdraw : ∀ amount, (s.withdraw amount).1.isOk = (s.finished && amount ≤ s.heroStack)
  withdrawKeeps : ∀ amount, (s.withdraw amount).1.isOk = false → (s.withdraw amount).2 = s

section claim
variable {localFeedback : Decision → Feedback} {settings : Settings} {deck : Shuffle} {id : String} {s : Session}
  {table : TableSize} {initial : Nat} {t : Tally} {P : HandConfig → Prop}

theorem refusesCash (s : Session) : RefusesCash s := by
  refine ⟨?_, ?_, fun amount => ?_, fun amount => ?_⟩
  · rcases topUp_cases s with ⟨hf, _, he⟩ | ⟨hf, _, _, he⟩
    · rw [he, hf]
      rfl
    · rw [he, hf]
      rfl
  · intro hrefused
    rcases topUp_cases s with ⟨_, _, he⟩ | ⟨_, _, _, he⟩
    · rw [he]
    · rw [he] at hrefused
      cases hrefused
  · rcases withdraw_cases s amount with ⟨hno, _, he⟩ | ⟨hf, hle, he⟩
    · rw [he]
      rcases hno with hf | hlt
      · rw [hf]
        rfl
      · rw [show decide (amount ≤ s.heroStack) = false from decide_eq_false (Nat.not_le.mpr hlt), Bool.and_false]
        rfl
    · rw [he, hf, show decide (amount ≤ s.heroStack) = true from decide_eq_true hle]
      rfl
  · intro hrefused
    rcases withdraw_cases s amount with ⟨_, _, he⟩ | ⟨_, _, he⟩
    · rw [he]
    · rw [he] at hrefused
      cases hrefused

theorem Booked.accounts (hb : Booked initial t s) (hr : Rests P s) (hf : s.finished = true) : Accounts initial t s := by
  have hsettled := hr.counted hf
  have hstack : ∀ p, s.holding t p = (s.hand.seat p).stack := by
    intro p
    rw [Session.holding, hsettled]
    rfl
  have hcompleted : s.completedHands = s.handId := by
    have h := hb.completed
    rw [hsettled] at h
    exact h
  refine ⟨?_, fun p hp hne => ?_, hb.profit, hcompleted, hcompleted ▸ hb.ready⟩
  · have hheld := hb.held hero (s.hand.tableSize.mem_seats.mpr (hero_lt _))
    rw [hstack, ← hb.profit] at hheld
    exact hheld
  · have hheld := hb.held p hp
    rw [hstack, hb.own p hne] at hheld
    simpa using hheld

theorem Opened.booked (ho : Opened settings deck table s) : Booked (settings.bigBlind * 100) s.firstTally s := by
  have hdealt : ∀ p, p.val < table.get → s.firstTally.dealt p = settings.bigBlind * 100 := by
    intro p hp
    obtain ⟨hdeck, start, _, hb, he⟩ := ho.plays.starts
    have hchips := dealt_chips (opening_full settings table deck) hdeck hb hp
    show (s.hand.seat p).stack + (s.hand.seat p).handContribution = _
    rw [he]
    exact hchips
  have hnone : ∀ p, s.addedTo p = 0 ∧ s.withdrawnFrom p = 0 := by
    intro p
    simp [Session.addedTo, Session.withdrawnFrom, ho.cashEvents]
  have hsize : s.hand.tableSize = table := ho.plays.kept.tableSize
  refine ⟨fun p hp => ?_, fun _ => ?_, ho.sessionProfit, fun p _ => (hnone p).2, ?_, ?_⟩
  · rw [hsize] at hp
    rw [Session.holding, ho.plays.unsettled, (hnone p).1, (hnone p).2]
    simp only [Bool.false_eq_true, if_false, hdealt p (table.mem_seats.mp hp)]
    simp [Session.firstTally]
  · rw [ho.plays.opening, hdealt hero (hero_lt _)]
  · rw [ho.completedHands, ho.plays.unsettled, ho.handId]
    rfl
  · rw [ho.replayReady, ho.completedHands]
    rfl

/-- A session's accounts balance between any two of its hands, as long as a next hand the
    engine would refuse has no rebuy to record. -/
theorem accounts_balance (hnew : Session.new settings deck id = .ok s) (ops : List SessionOp)
    (hkeeps : s.AtDeals localFeedback (fun s _ => s.ready = true → s.KeepsRebuys) ops) :
    ((s.run localFeedback ops).finished = true →
      Accounts (settings.bigBlind * 100) (s.tally localFeedback s.firstTally ops) (s.run localFeedback ops)) ∧
    RefusesCash (s.run localFeedback ops) := by
  obtain ⟨table, ho⟩ := new_opened hnew
  have hany : Rests (fun _ => True) s := ho.rests trivial
  refine ⟨fun hf => ?_, refusesCash _⟩
  exact (ho.booked.run hany hkeeps).accounts (hany.run_any localFeedback ops) hf

end claim

/-! ## A busted opponent -/

/-- A deck that gives the hero the better hand when the opponent deals. -/
def winningDeck : Shuffle :=
  ⟨⟨match Deck.new.cards.rotate 5 with
    | a :: b :: c :: d :: rest => b :: a :: d :: c :: rest
    | cards => cards, 0⟩, by decide +kernel, rfl⟩

/-- The hero busts the opponent in the second hand, with chips from a top-up at larger blinds. -/
def bustsOpponent : List SessionOp :=
  [.submit .fold, .continueHand, .saveSettings { headsUp with bigBlind := 100 }, .topUp, .nextHand winningDeck,
    .stepBot ⟨true, false, false⟩, .submit (.allIn 10000), .continueHand, .stepBot ⟨true, false, false⟩]

/-- The accounts after both hands: the hero's top-up apart from its profit, the opponent's stack gone. -/
theorem accounts_balance_busted : ∃ s, Session.new headsUp newDeck "s" = .ok s ∧
    (s.run uncertain bustsOpponent).heroStack = 10201 ∧
    Accounts 200 (s.tally uncertain s.firstTally bustsOpponent) (s.run uncertain bustsOpponent) := by
  have hrun : (Session.new headsUp newDeck "s").toOption.map (fun s =>
      (decide ((s.run uncertain (bustsOpponent.take 4)).KeepsRebuys), (s.run uncertain bustsOpponent).finished,
        (s.run uncertain bustsOpponent).heroStack)) = some (true, true, 10201) := by decide +kernel
  obtain ⟨s, hnew⟩ := headsUp_opens
  rw [hnew] at hrun
  simp only [Except.toOption, Option.map_some, Option.some.injEq, Prod.mk.injEq, decide_eq_true_eq] at hrun
  obtain ⟨hsecond, hf, hstack⟩ := hrun
  have hall : s.AtDeals uncertain (fun s _ => s.ready = true → s.KeepsRebuys) bustsOpponent := by
    refine .cons (fun _ he => by cases he) (.cons (fun _ he => by cases he) (.cons (fun _ he => by cases he)
      (.cons (fun _ he => by cases he) (.cons ?_ ?_))))
    · intro deck _ _
      exact hsecond
    · exact .cons (fun _ he => by cases he) (.cons (fun _ he => by cases he) (.cons (fun _ he => by cases he)
        (.cons (fun _ he => by cases he) .nil)))
  exact ⟨s, hnew, hstack, (accounts_balance hnew bustsOpponent hall).1 hf⟩

/-- With nine seats in the settings the third hand is refused, and the opponent's rebuy is
    on record though its stack is empty. -/
theorem lost_rebuy_unbalances : ∃ s, Session.new headsUp newDeck "s" = .ok s ∧
    (s.run uncertain (bustsOpponent ++ [.saveSettings { headsUp with seats := 9 }, .nextHand newDeck])).finished = true ∧
    ¬ Accounts 200 (s.tally uncertain s.firstTally
      (bustsOpponent ++ [.saveSettings { headsUp with seats := 9 }, .nextHand newDeck]))
      (s.run uncertain (bustsOpponent ++ [.saveSettings { headsUp with seats := 9 }, .nextHand newDeck])) := by
  have hrun : (Session.new headsUp newDeck "s").toOption.map (fun s =>
      let ops := bustsOpponent ++ [.saveSettings { headsUp with seats := 9 }, .nextHand newDeck]
      let s' := s.run uncertain ops
      (s'.finished, (s'.hand.seat 1).stack, (s.tally uncertain s.firstTally ops).results 1, s'.addedTo 1,
        s'.hand.tableSize.get)) =
        some (true, 0, -200, 200, 2) := by decide +kernel
  obtain ⟨s, hnew⟩ := headsUp_opens
  rw [hnew] at hrun
  simp only [Except.toOption, Option.map_some, Option.some.injEq, Prod.mk.injEq] at hrun
  obtain ⟨hf, hstack, hresults, hadded, hsize⟩ := hrun
  refine ⟨s, hnew, hf, fun haccounts => ?_⟩
  have hbot := haccounts.bots 1 ((TableSize.mem_seats _).mpr (by rw [hsize]; decide)) (by decide)
  rw [hstack, hresults, hadded] at hbot
  cases hbot

end OpenFelt.Trainer
