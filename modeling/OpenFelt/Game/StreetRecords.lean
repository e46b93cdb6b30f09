/-
  OpenFelt.Game.StreetRecords — the records of a street after the flop, turn by turn.

  `Recounts` replays a street from its records: each is a turn of a seat that was asked,
  of the kind that turn was (`Action.Fits`). `Opens` says who began it: no live seat is
  nearer clockwise of the button. Proved: in every run, on every street after the flop,
  the records recount the books from a fresh street, and the first of them is the
  opener's (`HandStarts.recounted_run`).
-/

import OpenFelt.Game.Dealing
import OpenFelt.Game.Rounds

namespace OpenFelt

open Betting

/-- A turn that found the wager at `wager` and the seat's bet at `bet`, and left the wager
    at `wager'`, was of this kind. -/
def Action.Fits (bet wager wager' : Nat) : Action → Prop
  | .check => bet = wager ∧ wager' = wager
  | .call n => 0 < n ∧ wager = bet + n ∧ wager' = wager
  | .bet n => wager = 0 ∧ 0 < n ∧ wager' = n
  | .raise n => 0 < wager ∧ wager < n ∧ wager' = n
  | .fold | .allIn _ => True

/-- The records lead from the street `s₀` to this one. -/
inductive Recounts (s₀ : Street SeatId) : List MultiwayActionRecord → Street SeatId → Prop
  | nil : Recounts s₀ [] s₀
  | snoc {records : List MultiwayActionRecord} {s : Street SeatId} {record : MultiwayActionRecord} {o : Outcome} :
      Recounts s₀ records s → s.Asked record.seat → Allowed s record.seat o → record.wagerAfter = o.wager →
      record.action.Fits (s.bet record.seat) s.wager o.wager →
      Recounts s₀ (records ++ [record]) (s.act record.seat o)

namespace MultiwayHand

/-- The seat that began the street, or is to begin it. -/
def opener (h : MultiwayHand) : Option SeatId := (h.streetHistory.head?.map (·.seat)).or h.toAct

/-- No live seat is nearer clockwise of the button than the one that began. -/
def Opens (h : MultiwayHand) : Prop := ∀ p q, h.opener = some p → h.street.status q = .live →
  clockwiseAwardKey h.tableSize h.button p ≤ clockwiseAwardKey h.tableSize h.button q

/-- The street under way, from its records. -/
structure Recounted (h : MultiwayHand) : Prop where
  street : ∃ s₀ : Street SeatId, Fresh h.blindValues.bigBlind s₀ ∧ s₀.wager = 0 ∧ Recounts s₀ h.streetHistory h.street
  opens : h.Opens

section records
variable {c : HandConfig} {h g k : MultiwayHand} {posted : Nat} {p q : SeatId} {action : Action} {o : Outcome}
  {legal : MultiwayLegalActions}

/-! ## One turn -/

theorem recordAction_wager (h : MultiwayHand) (p : SeatId) (action : Action) :
    (h.recordAction p action).currentWager = (h.moveChips p action).currentWager := by
  have hmark := (markResponse_table (h.moveChips p action) p).frame
  show ((h.moveChips p action).markResponse p).currentWager = _
  rw [hmark]

/-- What is accepted was of its kind. -/
theorem OnTurn.fits (ht : h.OnTurn p) (hb : h.Booked) (hs : Sound h.blindValues.bigBlind h.street)
    (hblind : 0 < h.blindValues.bigBlind) (hv : h.validateAction p action = .ok ()) :
    action.Fits (h.street.bet p) h.street.wager (h.recordAction p action).currentWager := by
  have htakes := ht.takes hb hs hv
  have hbet : h.street.bet p ≤ h.street.wager := hs.bet_le p
  have hraise : h.blindValues.bigBlind ≤ h.street.raise := hs.least_le
  have hfit := hb.street_fits p
  have hkept : ∀ target, (h.commitTo p target).currentWager = h.currentWager := fun target => by
    rw [commitTo, (commitChips_table h p _).frame]
  rw [recordAction_wager]
  cases action with
  | fold => trivial
  | allIn n => trivial
  | check => exact ⟨Nat.le_antisymm hbet htakes, rfl⟩
  | call n =>
    obtain ⟨he, hpos, hlt⟩ := htakes
    refine ⟨hpos, by omega, ?_⟩
    have hroom : (h.seat p).streetContribution + n ≤ h.street.bet p + h.street.stack p :=
      Nat.add_le_add_left (Nat.le_of_lt hlt) _
    have hfits : fitsU32 ((h.seat p).streetContribution + n) = true := by
      simp only [fitsU32, decide_eq_true_eq]
      omega
    rw [moveChips, hfits, check_true, hkept]
    rfl
  | bet n =>
    obtain ⟨hzero, hleast, _⟩ := htakes
    exact ⟨hzero, by omega, rfl⟩
  | raise n =>
    obtain ⟨hpos, hleast, _⟩ := htakes
    exact ⟨hpos, by omega, rfl⟩

/-- One more turn of the street. -/
theorem Recounted.acted (hr : h.Recounted) (hp : h.Playing posted) (hto : h.toAct = some p)
    (hv : h.validateAction p action = .ok ()) (ha : Allowed h.street p o) (hacted : Acted h p action o g)
    (hg : g = h.recordAction p action) :
    (∃ s₀ : Street SeatId, Fresh g.blindValues.bigBlind s₀ ∧ s₀.wager = 0 ∧ Recounts s₀ g.streetHistory g.street) ∧
      (g.streetHistory.head?.map (·.seat)) = h.opener ∧ ∀ q, g.street.status q = .live → h.street.status q = .live := by
  have hfits := (hp.onTurn hto).fits hp.booked hp.sound hp.blind hv
  have hasked := (needsAction_iff hp.sound).mp (hp.needs hto)
  have hwager : (h.recordAction p action).currentWager = o.wager := by rw [← hg, hacted.frame]
  obtain ⟨s₀, hfresh, hzero, hrecounts⟩ := hr.street
  refine ⟨⟨s₀, ?_, hzero, ?_⟩, ?_, ?_⟩
  · have hblinds : g.blindValues = h.blindValues := by rw [hacted.frame]
    rw [hblinds]
    exact hfresh
  · rw [hacted.streetHistory, hacted.street]
    rw [hwager] at hfits
    exact hrecounts.snoc hasked ha rfl hfits
  · rw [hacted.streetHistory, opener]
    cases h.streetHistory with
    | nil =>
      rw [hto]
      rfl
    | cons record records => rfl
  · intro r hlive
    rw [hacted.street] at hlive
    by_cases hrp : r = p
    · rw [hrp]
      exact hasked.1
    · rw [act_status_ne _ _ hrp] at hlive
      exact hlive

/-! ## The next street -/

/-- A street before its first turn is opened by the live seat nearest the button. -/
theorem openStreet_nearest {least : Nat} (hfresh : Fresh least g.street) (hb : g.button.val < g.tableSize.get)
    (hlen : g.seats.length = g.tableSize.get) (hto : g.openStreet.toAct = some p) (hq : (g.seat q).canAct = true) :
    clockwiseAwardKey g.tableSize g.button p ≤ clockwiseAwardKey g.tableSize g.button q := by
  have hable : (fun p => occupiedIn g.seats p && (g.seat p).canAct) = fun p => (g.seat p).canAct := by
    rw [← asked_fresh hfresh]
    funext p
    rw [needsAction_fresh hfresh]
  have hin := lt_of_occupied hlen (occupied_of_canAct hq)
  have hto : g.firstPostflop.bind g.firstNeedingFrom = some p := hto
  rw [firstPostflop, nextLiveAfter, hable] at hto
  cases hfirst : (clockwiseFrom g.tableSize g.button 1 g.tableSize.get).find? fun p => (g.seat p).canAct with
  | none => exact absurd hq (by rw [find_clockwise_none hb hfirst q hin]; exact Bool.false_ne_true)
  | some first =>
    rw [hfirst, Option.some_or, Option.bind_some, firstNeedingFrom, asked_fresh hfresh,
      find_clockwise_from hfirst fun _ hp => hp, hfirst] at hto
    rw [← Option.some.inj hto]
    exact (find_clockwise hb hfirst).2.2 q hin hq

theorem UnderWay.dealt_recounted (hu : g.UnderWay posted) (hriver : g.phase ≠ .river) (hcount : 2 ≤ g.potEligibleCount)
    (hact : 2 ≤ g.actors.length) (hb : g.button.val < g.tableSize.get) : g.dealStreet.Recounted := by
  have hplaying := hu.dealt hriver hcount hact
  have hempty := dealStreet_streetHistory hu hriver
  have hstreet := dealStreet_street hu hriver
  have hf := (dealStreet_frame hu hriver).1
  have ht := (updateOccupied_table g fun state => { state with streetContribution := 0, lastActionWager := none }).frame
  have hblinds : g.dealStreet.blindValues = g.blindValues := by rw [hf, clearStreet, ht]
  have hbutton : g.dealStreet.button = g.button := by rw [hf, clearStreet, ht]
  have hsize : g.dealStreet.tableSize = g.tableSize := by rw [hf, clearStreet, ht]
  have hfresh : Fresh g.dealStreet.blindValues.bigBlind g.dealStreet.street := by
    rw [hblinds, hstreet]
    exact next_fresh hu.sound
  refine ⟨⟨g.dealStreet.street, hfresh, ?_, ?_⟩, ?_⟩
  · rw [hstreet]
    rfl
  · rw [hempty]
    exact .nil
  · intro p q hp hlive
    rw [opener, hempty] at hp
    have hcan : (g.dealStreet.seat q).canAct = true := (MultiwayHand.canAct_iff hplaying.sound).mpr hlive
    -- opening a street that is open changes nothing
    have hagain : g.dealStreet.openStreet.toAct = some p := hp
    exact openStreet_nearest hfresh (by rw [hbutton, hsize]; exact hb) hplaying.booked.length hagain hcan

/-! ## Runs -/

/-- Of a hand that waits for an action after the flop. -/
def KnowsStreet (h : MultiwayHand) : Prop := h.toAct ≠ none → h.phase ≠ .preflop → h.Recounted

theorem KnowsStreet.waiting (hto : h.toAct = none) : h.KnowsStreet := fun hno => absurd hto hno

theorem Playing.knows_command (hp : h.Playing posted) (hk : h.KnowsStreet) (hb : h.button.val < h.tableSize.get)
    {command : SeatCommand}
    (hv : h.validateCommand command = .ok ()) : (h.applyValidatedAction command.seat command.action).KnowsStreet := by
  obtain ⟨o, g, ha, hacted, hu, hg, _, hproceeds⟩ := hp.command_cases hv
  obtain ⟨hturn, hva⟩ := validateCommand_ok hv
  have hb' : g.button.val < g.tableSize.get := by
    have hbutton : g.button = h.button := by rw [hacted.frame]
    have hsize : g.tableSize = h.tableSize := by rw [hacted.frame]
    rw [hbutton, hsize]
    exact hb
  generalize h.applyValidatedAction command.seat command.action = k at hproceeds
  cases hproceeds with
  | foldedOut hone => exact .waiting (awardFold_over hu hone).toAct
  | shows hcount _ hend => exact .waiting (hu.begins_follows hcount hend).2
  | deals hcount _ hriver hact => exact fun _ _ => hu.dealt_recounted hriver hcount hact hb'
  | asks q _ _ _ =>
    intro _ hphase
    have hphase' : h.phase ≠ .preflop := by
      have hsame : g.phase = h.phase := by rw [hacted.frame]
      rw [← hsame]
      exact hphase
    have hto := hturn.toAct
    have hr := hk (by rw [hto]; exact Option.some_ne_none _) hphase'
    obtain ⟨hstreet, hhead, hlive⟩ := hr.acted hp hto hva ha hacted hg
    refine ⟨hstreet, ?_⟩
    intro p r hopener hr'
    have hsome : (g.streetHistory.head?.map (·.seat)).isSome = true := by
      rw [hacted.streetHistory]
      cases h.streetHistory <;> rfl
    have hfirst : h.opener = some p := by
      rw [← hhead, ← hopener]
      show _ = ((g.streetHistory.head?.map (·.seat)).or _)
      rw [Option.or_of_isSome hsome]
    have hsize : g.tableSize = h.tableSize := by rw [hacted.frame]
    have hbutton : g.button = h.button := by rw [hacted.frame]
    show clockwiseAwardKey g.tableSize g.button p ≤ clockwiseAwardKey g.tableSize g.button r
    rw [hsize, hbutton]
    exact hr.opens p r hfirst (hlive r hr')

theorem Stage.knows (hs : Stage c posted h) (hb : c.button.val < c.tableSize.get) (hk : h.KnowsStreet) (op : HandOp) :
    (op.apply h).2.KnowsStreet := by
  by_cases hr : (op.apply h).1 = false
  · rw [apply_refused hr]
    exact hk
  cases hs with
  | settled _ _ => exact absurd (settle_over _).refuses hr
  | folded _ hu hone => exact absurd (awardFold_over hu hone).refuses hr
  | showing hc hsh hcov =>
    refine .waiting ?_
    obtain rfl : op = .advance := by
      by_contra hop; exact hr (hsh.refuses hop)
    rcases hsh.advance_cases with ⟨h', progress', he, hs', _, _, _⟩ | ⟨k, progress', _, _, _, he⟩
    · rw [show HandOp.advance.apply h = _ from he]
      exact hs'.contest.waiting
    · rw [show HandOp.advance.apply h = _ from he]
      exact (settle_over _).toAct
  | playing hc hp =>
    cases op with
    | advance => exact absurd (show (HandOp.advance.apply h).1 = false by
        rw [show HandOp.advance.apply h = (false, h) from advanceShowdown_none hp.quiet.progress]) hr
    | alwaysShow q v =>
      simp only [HandOp.apply, setAlwaysShow]
      split
      · exact hk
      split
      · exact hk
      · intro hto hphase
        obtain ⟨hstreet, hopens⟩ := hk hto hphase
        exact ⟨hstreet, hopens⟩
    | command command =>
      simp only [HandOp.apply, applyCommand] at hr ⊢
      cases hv : h.validateCommand command with
      | error e => rw [hv] at hr; exact absurd rfl hr
      | ok u =>
        rw [hv] at hr
        exact hp.knows_command hk (by rw [hc.button, hc.tableSize]; exact hb) hv

/-- A hand put into play waits, if for anything, for an action before the flop. -/
theorem HandStarts.knows (hstarts : HandStarts c h) : h.KnowsStreet := by
  obtain ⟨hdeck, start, paced, hbuild, rfl⟩ := hstarts
  obtain ⟨_, _, _, _, first, table, hbuilt⟩ := build_built hbuild
  intro hto hphase
  exfalso
  rcases hbuilt.opens hdeck with ⟨_, rfl⟩ | ⟨_, ⟨_, hshows⟩, _⟩
  · refine hphase ?_
    show (table.started first).phase = .preflop
    simp only [started]
    rw [(hbuilt.posting hdeck).frame (hbuilt.dealtIn hdeck).1]
    rfl
  · exact hto hshows.contest.waiting

theorem HandStarts.buttonSits (hstarts : HandStarts c h) : c.button.val < c.tableSize.get := by
  obtain ⟨hdeck, _, _, hbuild, _⟩ := hstarts
  obtain ⟨_, _, _, _, _, _, hbuilt⟩ := build_built hbuild
  have hd := (hbuilt.dealtIn hdeck).1
  rw [← hd.length]
  exact lt_of_occupiedIn hd.button

/-- In every run the records of a street after the flop recount it, from its opener on. -/
theorem HandStarts.recounted_run (hstarts : HandStarts c h) (ops : List HandOp) : (h.run ops).KnowsStreet := by
  have hrun : ∀ ops : List HandOp, ∀ g : MultiwayHand, Stage c h.currentWager g → g.KnowsStreet → (g.run ops).KnowsStreet := by
    intro ops
    induction ops with
    | nil =>
      intro g _ hk
      exact hk
    | cons op ops ih =>
      intro g hs hk
      exact ih _ (hs.step op) (hs.knows hstarts.buttonSits hk op)
  exact hrun ops h hstarts.stage hstarts.knows

end records

end MultiwayHand

end OpenFelt
