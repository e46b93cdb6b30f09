/-
  OpenFelt.Game.Unpaced — a hand nobody drives is settled by its commands.

  Without `enable_paced_showdown` a showdown is drained inside the command that reaches
  it. `with_prepared_deck` sets the flag around its own call to
  `advance_automatically_if_needed`, so a hand whose posts already close the betting is
  returned with its showdown waiting, and no command moves it.

  Proved: `build_settles`, the hands that commands alone settle are those whose posts
  leave the betting open (`HandConfig.opensBetting`).
-/

import OpenFelt.Game.Pacing
import OpenFelt.Game.Safety

namespace OpenFelt

open Betting

/-! ## What the posts leave -/

/-- A seat's stack and street contribution once it has met a post. -/
def meetPost (chips : Nat × Nat) (post : ForcedPost) : Nat × Nat :=
  let actual := min post.amount chips.1
  (chips.1 - actual, if post.live then chips.2 + actual else chips.2)

namespace HandConfig

/-- Small blind, big blind and first to act. -/
def positions (c : HandConfig) : Option (SeatId × SeatId × SeatId) :=
  match MultiwayHand.placeStacks c.tableSize c.seatStacks (List.replicate c.tableSize.get none) 0 with
  | .error _ => none
  | .ok (seats, _) => MultiwayHand.openingPositions c.tableSize seats c.button c.seatStacks.length

/-- What is posted after the antes, in order. -/
def blindPosts (c : HandConfig) : List ForcedPost :=
  let (smallBlind, bigBlind, _) := c.positions.getD (c.button, c.button, c.button)
  ⟨smallBlind, c.blindValues.smallBlind, true⟩ :: ⟨bigBlind, c.blindValues.bigBlind, true⟩ :: c.forcedPosts

/-- The stack and the street contribution a seat is left with. -/
def posted (c : HandConfig) (p : SeatId) : Nat × Nat :=
  (c.blindPosts.filter (·.seat = p)).foldl meetPost (meetPost (c.start p, 0) ⟨p, c.blindValues.ante, false⟩)

/-- Two players have chips left to bet with, or the only one has not matched the highest post. -/
def opensBetting (c : HandConfig) : Bool :=
  match (c.seatStacks.map (·.1)).filter fun p => 0 < (c.posted p).1 with
  | [] => false
  | [only] => (c.seatStacks.map (·.1)).any fun p => (c.posted only).2 < (c.posted p).2
  | _ => true

end HandConfig

namespace MultiwayHand

section posts
variable {c : HandConfig} {base h : MultiwayHand} {sb bb : SeatId} {p : SeatId}

/-- The chips of a seat as the posts change them. -/
def chipsOf (h : MultiwayHand) (p : SeatId) : Nat × Nat := ((h.seat p).stack, (h.seat p).streetContribution)

/-- One post put in, counted towards a call or not. -/
def meet (h : MultiwayHand) (post : ForcedPost) : MultiwayHand :=
  if post.live then h.commitChips post.seat post.amount else h.commitDeadChips post.seat post.amount

theorem meet_occupied (h : MultiwayHand) (post : ForcedPost) (p : SeatId) :
    occupiedIn (h.meet post).seats p = occupiedIn h.seats p := by
  unfold meet
  split
  · exact (commitChips_table h _ _).occupied p
  · exact (commitDeadChips_table h _ _).occupied p

theorem chipsOf_meet {post : ForcedPost} (hocc : occupiedIn h.seats post.seat = true) (p : SeatId) :
    (h.meet post).chipsOf p = if post.seat = p then meetPost (h.chipsOf p) post else h.chipsOf p := by
  unfold meet chipsOf
  by_cases hp : post.seat = p
  · subst hp
    rw [if_pos rfl]
    split
    · rename_i hlive
      rw [seat_commitChips_self hocc]
      simp [meetPost, paid, hlive]
    · rename_i hdead
      rw [seat_commitDeadChips_self hocc]
      simp [meetPost, paid, hdead]
  · rw [if_neg hp]
    split
    · rw [seat_commitChips_ne (Ne.symm hp)]
    · rw [seat_commitDeadChips_ne (Ne.symm hp)]

theorem foldl_meet {posts : List ForcedPost} (hocc : ∀ post ∈ posts, occupiedIn h.seats post.seat = true) (p : SeatId) :
    (posts.foldl meet h).chipsOf p = (posts.filter (·.seat = p)).foldl meetPost (h.chipsOf p) := by
  induction posts generalizing h with
  | nil => rfl
  | cons post posts ih =>
    have hrest : ∀ x ∈ posts, occupiedIn (h.meet post).seats x.seat = true := by
      intro x hx
      rw [meet_occupied]
      exact hocc x (List.mem_cons_of_mem _ hx)
    rw [List.foldl_cons, ih hrest, chipsOf_meet (hocc post List.mem_cons_self)]
    by_cases hp : post.seat = p
    · rw [if_pos hp, List.filter_cons_of_pos (by simpa using hp), List.foldl_cons]
    · rw [if_neg hp, List.filter_cons_of_neg (by simpa using hp)]

theorem postForced_meets {posts : List ForcedPost} {h' : MultiwayHand} (hlen : h.seats.length = h.tableSize.get)
    (hposts : postForced posts h = .ok h') : (∀ post ∈ posts, occupiedIn h.seats post.seat = true) ∧ h' = posts.foldl meet h := by
  induction posts generalizing h with
  | nil => exact ⟨fun _ hx => (nomatch hx), (Except.ok.inj hposts).symm⟩
  | cons post posts ih =>
    unfold postForced at hposts
    split at hposts
    · cases hposts
    rename_i hany
    have hocc : occupiedIn h.seats post.seat = true := by
      have hin : h.occupiedSeats.any (· == post.seat) = true := by simpa using hany
      obtain ⟨q, hq, he⟩ := List.any_eq_true.mp hin
      rw [← beq_iff_eq.mp he]
      exact (mem_occupiedSeats hlen).mp hq
    have htable : SameTable h (h.meet post) := by
      unfold meet
      split
      · exact commitChips_table h _ _
      · exact commitDeadChips_table h _ _
    have hlen' : (h.meet post).seats.length = (h.meet post).tableSize.get := by
      rw [htable.length, htable.tableSize, hlen]
    obtain ⟨hrest, he⟩ := ih hlen' hposts
    refine ⟨fun x hx => ?_, he⟩
    rcases List.mem_cons.mp hx with rfl | hx
    · exact hocc
    · rw [← meet_occupied]
      exact hrest x hx

theorem postAntes_chips (hd : DealtIn c sb bb base) (hocc : occupiedIn base.seats p = true) :
    base.postAntes.chipsOf p = meetPost (c.start p, 0) ⟨p, c.blindValues.ante, false⟩ := by
  have hlen : base.seats.length = base.tableSize.get := by rw [hd.length, hd.frame]; rfl
  have hblinds : base.blindValues = c.blindValues := by rw [hd.frame]; rfl
  have hbase : base.chipsOf p = (c.start p, 0) := by
    rw [chipsOf, hd.seat p hocc]
    rfl
  unfold postAntes
  rw [hblinds]
  split
  · have hfold : base.occupiedSeats.foldl (fun hand q => hand.commitDeadChips q c.blindValues.ante) base =
        (base.occupiedSeats.map fun q => (⟨q, c.blindValues.ante, false⟩ : ForcedPost)).foldl meet base := by
      rw [List.foldl_map]
      rfl
    have hone : (base.occupiedSeats.map fun q => (⟨q, c.blindValues.ante, false⟩ : ForcedPost)).filter (·.seat = p) =
        [⟨p, c.blindValues.ante, false⟩] := by
      have hcount : base.occupiedSeats.count p = 1 :=
        List.count_eq_one_of_mem (nodup_occupiedSeats base) ((mem_occupiedSeats hlen).mpr hocc)
      rw [List.filter_map]
      have hsame : base.occupiedSeats.filter ((fun post : ForcedPost => decide (post.seat = p)) ∘
          fun q => (⟨q, c.blindValues.ante, false⟩ : ForcedPost)) = base.occupiedSeats.filter (· == p) := by
        exact List.filter_congr fun q _ => by rw [Function.comp_apply, Bool.beq_eq_decide_eq]
      rw [hsame, List.filter_beq, hcount]
      rfl
    rw [hfold, foldl_meet ?_ p, hone, hbase]
    · rfl
    · intro post hp
      obtain ⟨q, hq, rfl⟩ := List.mem_map.mp hp
      exact (mem_occupiedSeats hlen).mp hq
  · rename_i hz
    rw [hbase]
    have hz : c.blindValues.ante = 0 := by omega
    simp [meetPost, hz]

end posts

section opens
variable {c : HandConfig} {h table : MultiwayHand} {sb bb first : SeatId} {chips : Nat} {seats : List (Option MultiwaySeatState)}

/-- The table is what the blinds and forced posts make of the seats that have paid their antes. -/
theorem Built.table_meets (hdeck : c.deck.Shuffled) (hb : Built c seats chips sb bb first table h) :
    table = c.blindPosts.foldl meet (c.dealtTo seats chips sb bb).postAntes ∧
      ∀ post ∈ c.blindPosts, occupiedIn (c.dealtTo seats chips sb bb).postAntes.seats post.seat = true := by
  obtain ⟨hd, hsb, hbb, _⟩ := hb.dealtIn hdeck
  have hposts := hb.posts
  have hblindPosts : c.blindPosts =
      ⟨sb, c.blindValues.smallBlind, true⟩ :: ⟨bb, c.blindValues.bigBlind, true⟩ :: c.forcedPosts := by
    simp only [HandConfig.blindPosts, HandConfig.positions, hb.placed, hb.positions, Option.getD_some]
  generalize c.dealtTo seats chips sb bb = base at *
  have hante := postAntes_posting hd
  have hframe := hante.frame hd
  have hlen : base.postAntes.seats.length = base.postAntes.tableSize.get := by
    rw [hante.table.length, hd.length, hframe]
    rfl
  have hblinds : base.postAntes.postBlinds =
      [⟨sb, c.blindValues.smallBlind, true⟩, ⟨bb, c.blindValues.bigBlind, true⟩].foldl meet base.postAntes := by
    rw [postBlinds, hframe]
    rfl
  have hlenBlinds : base.postAntes.postBlinds.seats.length = base.postAntes.postBlinds.tableSize.get := by
    have hsame : SameTable base.postAntes base.postAntes.postBlinds := by
      unfold postBlinds
      exact (commitChips_table _ _ _).trans (commitChips_table _ _ _)
    rw [hsame.length, hsame.tableSize, hlen]
  obtain ⟨hseated, he⟩ := postForced_meets hlenBlinds hposts
  constructor
  · rw [he, hblinds, ← List.foldl_append, hblindPosts]
    rfl
  · intro post hpost
    rw [hblindPosts] at hpost
    simp only [List.mem_cons] at hpost
    rcases hpost with rfl | rfl | hpost
    · exact (hante.table.occupied sb).trans hsb
    · exact (hante.table.occupied bb).trans hbb
    · have hin := hseated post hpost
      rw [hblinds] at hin
      simpa [meet_occupied] using hin

theorem Built.mem_table (hdeck : c.deck.Shuffled) (hb : Built c seats chips sb bb first table h) {p : SeatId} :
    p ∈ table.occupiedSeats ↔ occupiedIn (c.dealtTo seats chips sb bb).seats p = true := by
  have hd := (hb.dealtIn hdeck).1
  have hpost := hb.posting hdeck
  have hlen : table.seats.length = table.tableSize.get := by
    rw [hpost.table.length, hd.length, hpost.frame hd]
    rfl
  rw [mem_occupiedSeats hlen, hpost.table.occupied]

theorem Built.table_chips (hdeck : c.deck.Shuffled) (hb : Built c seats chips sb bb first table h) {p : SeatId}
    (hp : p ∈ table.occupiedSeats) : table.chipsOf p = c.posted p := by
  have hd := (hb.dealtIn hdeck).1
  obtain ⟨he, hocc⟩ := hb.table_meets hdeck
  have hbase := (hb.mem_table hdeck).mp hp
  rw [he, foldl_meet hocc p, postAntes_chips hd hbase]
  rfl

/-- The posts leave the betting open. -/
theorem Built.opens_iff (hdeck : c.deck.Shuffled) (hb : Built c seats chips sb bb first table h) :
    (table.started first).bettingRoundComplete = false ↔ c.opensBetting = true := by
  have hd := (hb.dealtIn hdeck).1
  have hpost := hb.posting hdeck
  have hperm := hpost.occupiedSeats hd
  have hu := hpost.underWay hd hb.blinds first
  have hchips : ∀ p ∈ table.occupiedSeats, (table.seat p).stack = (c.posted p).1 ∧
      (table.seat p).streetContribution = (c.posted p).2 := by
    intro p hp
    have := hb.table_chips hdeck hp
    exact Prod.mk.inj this
  have hactors : (table.started first).actors.Perm ((c.seatStacks.map (·.1)).filter fun p => 0 < (c.posted p).1) := by
    have hcan : (table.started first).actors = table.occupiedSeats.filter fun p => 0 < (c.posted p).1 := by
      refine List.filter_congr fun p hp => ?_
      have hs := hpost.seat_cases p
      rw [Bool.eq_iff_iff, decide_eq_true_eq, ← (hchips p hp).1]
      show (table.seat p).canAct = true ↔ _
      rcases hs with ⟨_, hv⟩ | ⟨_, hs⟩
      · rw [hv]; decide
      · constructor
        · intro hc
          simp only [MultiwaySeatState.canAct, Bool.and_eq_true, decide_eq_true_eq] at hc
          exact hc.1
        · intro hpos
          simp [MultiwaySeatState.canAct, hpos, hs.live hpos]
    rw [hcan]
    exact hperm.filter _
  have hwager : ∀ p ∈ table.occupiedSeats, ((table.started first).currentWager ≤ (c.posted p).2 ↔
      ∀ q ∈ table.occupiedSeats, (c.posted q).2 ≤ (c.posted p).2) := by
    intro p _
    have hle := Vec.le_foldl_max (table.occupiedSeats.map fun q => (table.seat q).streetContribution) 0
    constructor
    · intro hw q hq
      rw [← (hchips q hq).2]
      exact Nat.le_trans (hle.2 _ (List.mem_map_of_mem hq)) hw
    · intro hall
      show table.wagerPosted ≤ _
      rcases Vec.foldl_max_mem (table.occupiedSeats.map fun q => (table.seat q).streetContribution) 0 with hz | hm
      · exact hz.trans_le (Nat.zero_le _)
      · obtain ⟨q, hq, he⟩ := List.mem_map.mp hm
        exact he.symm.trans_le ((hchips q hq).2 ▸ hall q hq)
  unfold HandConfig.opensBetting
  rcases bettingRoundComplete_cases (table.started first) with ⟨hl, hc⟩ | ⟨p, hl, hc⟩ | ⟨hl, hc⟩
  · rw [hl] at hactors
    rw [hc, ← hactors.nil_eq]
    simp
  · rw [hl] at hactors
    have hp : p ∈ table.occupiedSeats := List.mem_of_mem_filter (show p ∈ (table.started first).actors by rw [hl]; simp)
    rw [hc, ← List.singleton_perm.mp hactors, decide_eq_false_iff_not]
    show ¬ (table.started first).currentWager ≤ (table.seat p).streetContribution ↔ _
    rw [(hchips p hp).2, hwager p hp, List.any_eq_true]
    constructor
    · intro hnot
      push Not at hnot
      obtain ⟨q, hq, hlt⟩ := hnot
      exact ⟨q, hperm.mem_iff.mp hq, decide_eq_true hlt⟩
    · rintro ⟨q, hq, hlt⟩ hall
      exact absurd (hall q (hperm.mem_iff.mpr hq)) (Nat.not_le.mpr (of_decide_eq_true hlt))
  · -- nobody has acted, so two who can act leave the round open
    have hfresh := (hpost.fresh hd first).unmarked
    have hnot : (table.started first).bettingRoundComplete = false := by
      rw [hc, List.all_eq_false]
      obtain ⟨p, hp⟩ := List.exists_mem_of_length_pos (show 0 < (table.started first).actors.length by omega)
      refine ⟨p, hp, ?_⟩
      have hcan := (mem_actors hu.booked.length).mp hp
      have hmark : ((table.started first).seat p).lastActionWager = none := hfresh p
      simp [needsAction, hcan, hmark]
    rw [hactors.length_eq] at hl
    rw [hnot]
    split
    · rename_i he; rw [he] at hl; simp at hl
    · rename_i he; rw [he] at hl; simp at hl
    · simp

end opens

/-! ## Commands come to an end -/

/-- The seats that still have to respond. -/
def waiting (h : MultiwayHand) : List SeatId := h.occupiedSeats.filter h.needsAction

/-- No hand in play accepts more commands: a chip put in or a street ended outweighs every
    seat that is asked again. -/
def movesLeft (h : MultiwayHand) : Nat :=
  if h.phase.acceptsActions then 10 * (h.phase.streetsLeft + h.sumSeats (·.stack)) + h.waiting.length else 0

/-- Each command is accepted when its turn comes. -/
def Accepts (h : MultiwayHand) : List SeatCommand → Prop
  | [] => True
  | command :: rest => h.validateCommand command = .ok () ∧ (h.applyCommand command).2.Accepts rest

section ends
variable {h g k : MultiwayHand} {posted : Nat} {p : SeatId} {action : Action} {o : Outcome} {command : SeatCommand}

theorem waiting_le (h : MultiwayHand) : h.waiting.length ≤ 9 := by
  have hfilter : h.waiting.length ≤ h.tableSize.seats.length :=
    (List.length_filter_le _ _).trans (List.length_filter_le _ _)
  have hsize : h.tableSize.seats.length = h.tableSize.get := by simp [TableSize.seats]
  exact hfilter.trans (hsize.trans_le h.tableSize.le_nine)

/-- A turn takes what it pays out of the stacks. -/
theorem Acted.stack_sum (hacted : Acted h p action o g) (hp : p ∈ h.occupiedSeats) (hpaid : o.paid ≤ (h.seat p).stack) :
    g.sumSeats (·.stack) + o.paid = h.sumSeats (·.stack) := by
  have hseat : ∀ q, (g.seat q).stack = (h.street.act p o).stack q := fun q => congrArg (fun s => Street.stack s q) hacted.street
  have hsum := Ledger.sum_update (nodup_occupiedSeats h) hp (f := fun q => (h.seat q).stack) (g := fun q => (g.seat q).stack)
    fun q _ hq => by rw [hseat, act_stack_ne _ _ hq]; rfl
  have hself : (g.seat p).stack = (h.seat p).stack - o.paid := by
    rw [hseat, act_stack_self]
    rfl
  have hafter : g.sumSeats (·.stack) = (h.occupiedSeats.map fun q => (g.seat q).stack).sum := by
    rw [← hacted.occupiedSeats]
    rfl
  have hbefore : h.sumSeats (·.stack) = (h.occupiedSeats.map fun q => (h.seat q).stack).sum := rfl
  omega

/-- A turn that pays nothing leaves one seat fewer to respond. -/
theorem Acted.waiting_lt (hacted : Acted h p action o g) (hu : h.UnderWay posted) (hug : g.UnderWay posted)
    (hasked : h.street.Asked p) (ha : Allowed h.street p o) (hfree : o.paid = 0) : g.waiting.length < h.waiting.length := by
  obtain ⟨hself, hothers⟩ := ha.free hu.sound hu.blind hasked.1 hfree
  rw [← hacted.street] at hself hothers
  have hp : p ∈ h.waiting := by
    have hocc : occupiedIn h.seats p = true := occupied_of_status (by rw [hasked.1]; simp)
    exact List.mem_filter.mpr ⟨(mem_occupiedSeats hu.booked.length).mpr hocc, (needsAction_iff hu.sound).mpr hasked⟩
  have hsub : g.waiting ⊆ h.waiting.erase p := by
    intro q hq
    obtain ⟨hmem, hneeds⟩ := List.mem_filter.mp hq
    have hasks := (needsAction_iff hug.sound).mp hneeds
    have hne : q ≠ p := fun e => hself (e ▸ hasks)
    rw [List.mem_erase_of_ne hne]
    exact List.mem_filter.mpr ⟨hacted.occupiedSeats ▸ hmem, (needsAction_iff hu.sound).mpr ((hothers q hne).mp hasks)⟩
  have hn : g.waiting.Nodup := (nodup_occupiedSeats g).filter _
  have hle := (hn.subperm hsub).length_le
  have hlen := List.length_erase_of_mem hp
  have hpos := List.length_pos_of_mem hp
  omega

theorem movesLeft_closed (hclosed : h.phase.acceptsActions = false) : h.movesLeft = 0 := by
  unfold movesLeft
  rw [hclosed]
  rfl

theorem UnderWay.movesLeft (hu : h.UnderWay posted) :
    h.movesLeft = 10 * (h.phase.streetsLeft + h.sumSeats (·.stack)) + h.waiting.length := by
  unfold MultiwayHand.movesLeft
  rw [if_pos hu.accepts]

theorem Over.closed (ho : h.Over) : h.phase.acceptsActions = false := by
  rcases ho.phase with e | e <;> rw [e] <;> rfl

/-- A command brings a hand nobody paces nearer its end. -/
theorem Playing.movesLeft_lt (hp : h.Playing posted) (hunpaced : h.pacedShowdown = false)
    (hv : h.validateCommand command = .ok ()) : (h.applyCommand command).2.movesLeft < h.movesLeft := by
  obtain ⟨o, g, ha, hacted, hu, _, hasked, hproceeds⟩ := hp.command_cases hv
  have happly : (h.applyCommand command).2 = h.applyValidatedAction command.seat command.action := by
    rw [applyCommand, hv]
  have hocc : occupiedIn h.seats command.seat = true := occupied_of_status (by rw [hasked.1]; simp)
  have hstacks := hacted.stack_sum ((mem_occupiedSeats hp.booked.length).mpr hocc) (ha.paid_le hp.sound)
  have hphase : g.phase = h.phase := by rw [hacted.frame]
  have hflag : g.pacedShowdown = false := by rw [hacted.frame]; exact hunpaced
  have hbefore := hp.toUnderWay.movesLeft
  have hleft := MultiwayPhase.streetsLeft_pos hp.accepts
  have hover : ∀ {k : MultiwayHand}, k.Over → k.movesLeft < h.movesLeft := by
    intro k ho
    rw [movesLeft_closed ho.closed, hbefore]
    omega
  rw [happly]
  generalize h.applyValidatedAction command.seat command.action = k at hproceeds
  cases hproceeds with
  | foldedOut hone => exact hover (awardFold_over hu hone)
  | asks q hcount hopen hq =>
    have hnext : MultiwayHand.movesLeft { g with toAct := some q } = g.movesLeft := rfl
    rw [hnext, hu.movesLeft, hbefore, hphase]
    by_cases hfree : o.paid = 0
    · have := hacted.waiting_lt hp.toUnderWay hu hasked ha hfree
      omega
    · have := g.waiting_le
      omega
  | deals hcount hdone hriver hact =>
    have hdealt := hu.dealt hriver hcount hact
    obtain ⟨_, _, hseats⟩ := dealStreet_table hu hriver
    have hsame : g.dealStreet.sumSeats (·.stack) = g.sumSeats (·.stack) := by
      unfold sumSeats
      rw [hseats]
      exact congrArg List.sum (List.map_congr_left fun q _ => by rw [seat_dealStreet hu hriver])
    have hlater := MultiwayPhase.next_later hu.accepts hriver
    have hnext : g.dealStreet.phase = g.phase.next := by rw [(dealStreet_frame hu hriver).1]
    have := g.dealStreet.waiting_le
    rw [hdealt.toUnderWay.movesLeft, hbefore, hnext, hsame]
    rw [hphase] at hlater ⊢
    omega
  | shows hcount _ hend =>
    rcases hu.begins hcount hend with ⟨hpaced, _⟩ | ⟨_, k, _, _, _, he⟩
    · rw [hflag] at hpaced
      cases hpaced
    · rw [he]
      exact hover (settle_over k)

end ends

/-! ## Hands that commands settle -/

/-- Every chip is back in a stack. -/
structure Awarded (h : MultiwayHand) : Prop where
  ok : h.panicked = false
  chips : h.sumSeats (·.stack) = h.initialTotal
  contributions : h.sumSeats (·.handContribution) = 0

/-- Commands alone bring the hand to its end: between calls no showdown is pending, no
    sequence of accepted commands goes on for ever, and where none is accepted any more the
    hand is over with its chips awarded. -/
structure SettlesAlone (h : MultiwayHand) : Prop where
  progress : ∀ ops, (h.run ops).showdownProgress = none
  bounded : ∃ bound, ∀ commands, h.Accepts commands → commands.length ≤ bound
  rests : ∀ ops, ((h.run ops).Finished ∧ (h.run ops).Awarded) ∨ ∃ p, (h.run ops).Acts p

section alone
variable {c : HandConfig} {h k : MultiwayHand} {posted : Nat} {op : HandOp}

/-- In play with nobody pacing it, or over. -/
def Unpaced (posted : Nat) (h : MultiwayHand) : Prop := (h.Playing posted ∧ h.pacedShowdown = false) ∨ h.Over

theorem Unpaced.progress (hu : h.Unpaced posted) : h.showdownProgress = none := by
  rcases hu with ⟨hp, _⟩ | ho
  · exact hp.quiet.progress
  · exact ho.progress

theorem Paces.unpaced (hs : Paces posted h k) : h.Unpaced posted := by
  cases hs with
  | playing hp hunpaced => exact Or.inl ⟨hp, hunpaced⟩
  | settled ho => exact Or.inr ho
  | waits ho _ _ => exact Or.inr ho

theorem Unpaced.paces (hu : h.Unpaced posted) : Paces posted h h.enablePacedShowdown := by
  rcases hu with ⟨hp, hunpaced⟩ | ho
  · exact .playing hp hunpaced
  · exact .settled ho

/-- One call keeps it so. -/
theorem Unpaced.step (hu : h.Unpaced posted) (op : HandOp) : (op.apply h).2.Unpaced posted := by
  by_cases hop : op = .advance
  · subst hop
    rw [show HandOp.advance.apply h = (false, h) from advanceShowdown_none hu.progress]
    exact hu
  · exact (hu.paces.step hop).unpaced

theorem Unpaced.run (hu : h.Unpaced posted) (ops : List HandOp) : (h.run ops).Unpaced posted := by
  induction ops generalizing h with
  | nil => exact hu
  | cons op ops ih => exact ih (hu.step op)

theorem Unpaced.bounded {commands : List SeatCommand} (hu : h.Unpaced posted) (ha : h.Accepts commands) :
    commands.length ≤ h.movesLeft := by
  induction commands generalizing h with
  | nil => exact Nat.zero_le _
  | cons command rest ih =>
    obtain ⟨hv, hrest⟩ := ha
    rcases hu with ⟨hp, hunpaced⟩ | ho
    · have hnext := ih (Unpaced.step (Or.inl ⟨hp, hunpaced⟩) (.command command)) hrest
      have hlt := hp.movesLeft_lt hunpaced hv
      have hsame : (HandOp.apply (.command command) h).2 = (h.applyCommand command).2 := rfl
      rw [hsame] at hnext
      rw [List.length_cons]
      omega
    · have hrefused := @Over.refuses _ (.command command) ho
      rw [HandOp.apply, applyCommand, hv] at hrefused
      cases hrefused

/-- With nothing left in the pot the stacks hold the table's chips. -/
theorem awarded_of_total (hok : h.panicked = false) (htotal : h.totalChips = h.initialTotal)
    (hzero : ∀ p ∈ h.occupiedSeats, (h.seat p).handContribution = 0) : h.Awarded := by
  have hnone : h.sumSeats (·.handContribution) = 0 := by
    unfold sumSeats
    refine List.sum_eq_zero_iff_forall_eq_nat.mpr fun n hn => ?_
    obtain ⟨p, hp, he⟩ := List.mem_map.mp hn
    exact he.symm.trans (hzero p hp)
  refine ⟨hok, ?_, hnone⟩
  rw [totalChips, hnone] at htotal
  exact htotal

/-- A hand that is over has paid everything out, when no dead post can strand a pot. -/
theorem Stage.awarded (hs : Stage c posted h) (hbacked : c.Backed) (hclosed : h.phase.acceptsActions = false) : h.Awarded := by
  have hsums := hs.sums hbacked
  refine awarded_of_total hsums.ok hsums.total fun p hp => ?_
  cases hs with
  | playing _ hplay => rw [hplay.accepts] at hclosed; cases hclosed
  | showing _ hsh _ => rw [hsh.contest.accepts] at hclosed; cases hclosed
  | @settled progress g hc hg =>
    have hset := hg.settled (hg.takers hc hbacked)
    have hlen : g.seats.length = g.tableSize.get := hg.balanced.booked.length
    have hlen' : g.settle.seats.length = g.settle.tableSize.get := by
      rw [hset.length, hset.frame]
      exact hlen
    have hocc : occupiedIn g.seats p = true := (hset.occupied p).symm.trans ((mem_occupiedSeats hlen').mp hp)
    rw [hset.seat p hocc]
  | @folded g hc hu hone =>
    obtain ⟨_, hf⟩ := awardFold_spec hu.balanced hone
    have hlen' : g.awardFold.seats.length = g.awardFold.tableSize.get := by
      rw [hf.length, hf.frame]
      exact hu.booked.length
    have hocc : occupiedIn g.seats p = true := (hf.occupied p).symm.trans ((mem_occupiedSeats hlen').mp hp)
    rw [hf.seat p hocc]

/-- A hand that is built with its betting open is settled by its commands alone. -/
theorem Unpaced.settlesAlone (hs : Stage c posted h) (hu : h.Unpaced posted) (hbacked : c.Backed) : h.SettlesAlone := by
  refine ⟨fun ops => (hu.run ops).progress, ⟨h.movesLeft, fun _ ha => hu.bounded ha⟩, fun ops => ?_⟩
  rcases hu.run ops with ⟨hp, _⟩ | ho
  · exact Or.inr hp.acts
  · exact Or.inl ⟨⟨ho.phase, ho.toAct⟩, (hs.run ops).awarded hbacked ho.closed⟩

/-- With the betting open the constructor goes no further than the posts. -/
theorem Built.open_eq {table : MultiwayHand} {sb bb first : SeatId} {chips : Nat} {seats : List (Option MultiwaySeatState)}
    (hb : Built c seats chips sb bb first table h) (hopen : (table.started first).bettingRoundComplete = false) :
    h = { table.started first with pacedShowdown := false } := by
  have hsame : table.openPreflop first =
      { (table.started first).advanceAutomaticallyIfNeeded with pacedShowdown := false } := rfl
  rw [hb.opened, hsame, advanceAutomaticallyIfNeeded, hopen, Bool.and_false, if_neg Bool.false_ne_true]

theorem Built.open_quiet {table : MultiwayHand} {sb bb first : SeatId} {chips : Nat} {seats : List (Option MultiwaySeatState)}
    (hdeck : c.deck.Shuffled) (hb : Built c seats chips sb bb first table h)
    (hopen : (table.started first).bettingRoundComplete = false) :
    h.showdownProgress = none := by
  have hframe := (hb.posting hdeck).frame (hb.dealtIn hdeck).1
  rw [hb.open_eq hopen]
  show table.showdownProgress = none
  rw [hframe]
  rfl

/-- The hands a constructor returns that their commands settle are those whose posts leave
    the betting open. Dead posts of more than a chip apart from the antes can strand a pot
    besides; with none, the betting being open is all it takes. -/
theorem build_settles (hdeck : c.deck.Shuffled) (hb : c.build = .ok h) :
    (h.SettlesAlone → c.opensBetting = true) ∧ (c.Backed → (h.SettlesAlone ↔ c.opensBetting = true)) := by
  obtain ⟨_, _, _, _, _, _, hbuilt⟩ := build_built hb
  have hopens := hbuilt.opens_iff hdeck
  obtain ⟨hc, _, hunpaced, hcases⟩ := hbuilt.cases hdeck
  have hneeds : h.SettlesAlone → c.opensBetting = true := by
    intro hs
    rcases hcases with ⟨hopen, _⟩ | ⟨progress, hsh, _⟩
    · exact hopens.mp hopen
    · have hnone := hs.progress []
      rw [run, List.foldl_nil, hsh.tabled.current] at hnone
      cases hnone
  refine ⟨hneeds, fun hbacked => ⟨hneeds, fun hopen => ?_⟩⟩
  rcases hcases with ⟨_, hp⟩ | ⟨progress, hsh, _⟩
  · exact Unpaced.settlesAlone (.playing hc hp) (Or.inl ⟨hp, hunpaced⟩) hbacked
  · have hnone := hbuilt.open_quiet hdeck (hopens.mpr hopen)
    rw [hsh.tabled.current] at hnone
    cases hnone

end alone

end MultiwayHand

end OpenFelt
