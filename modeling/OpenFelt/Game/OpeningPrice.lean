/-
  OpenFelt.Game.OpeningPrice — what it costs to see the flop when some players owe blinds.

  A debt is posted on top of the blind of the position, unless the position posts it. So a
  player in the small blind who owes a big blind has both in front of them: three chips
  towards the call where the big blind has two, and everybody is asked for three.

  Proved, of every hand whose seats can pay what they are asked:
  - `Built.street`: before anybody acts each seat has in front of it its blind and its live posts.
  - `run_price`: the price is one big blind, and nobody pays more, exactly when the small
    blind owes no big blind.
-/

import OpenFelt.Game.Positions

namespace OpenFelt

open MultiwayHand

/-- The chips that posts ask of their seats. -/
def postAmounts (posts : List ForcedPost) : List (SeatId × Nat) := posts.map fun post => (post.seat, post.amount)

@[simp] theorem postAmounts_nil : postAmounts [] = [] := rfl

@[simp] theorem postAmounts_cons (post : ForcedPost) (posts : List ForcedPost) :
    postAmounts (post :: posts) = (post.seat, post.amount) :: postAmounts posts := rfl

@[simp] theorem postAmounts_append (a b : List ForcedPost) : postAmounts (a ++ b) = postAmounts a ++ postAmounts b :=
  List.map_append

/-- What a seat of the hand is asked to post. -/
def HandStart.asked (start : HandStart) (h : MultiwayHand) (p : SeatId) : Nat :=
  (if h.smallBlind = p then smallBlind else 0) + (if h.bigBlind = p then bigBlind else 0) +
    Ledger.credited (postAmounts start.forcedPosts) p

/-- The first price is the big blind, and nobody has more than that in front of them. -/
structure OpensAtBigBlind (h : MultiwayHand) : Prop where
  wager : h.currentWager = bigBlind
  big : (h.seat h.bigBlind).streetContribution = bigBlind
  most : ∀ p, (h.seat p).streetContribution ≤ bigBlind

/-- The seat that will be the small blind owes a big blind. -/
def TableLifecycle.SmallBlindOwesBig (t : TableLifecycle) : Prop :=
  ∃ button positions st, t.promoteNaturalBigBlindWaiter.nextButton = some button ∧
    t.promoteNaturalBigBlindWaiter.seats.positions button = .ok positions ∧
      t.promoteNaturalBigBlindWaiter.seats.seat positions.smallBlind = some st ∧ st.blindObligation.owes .big = true

/-! ## Posts -/

section posts
variable {sb bb p q : SeatId} {o : BlindObligation} {obligations : List (SeatId × BlindObligation)}

theorem posts_live : Ledger.credited (postAmounts ((o.posts sb bb q).filter (·.live))) p =
    if q = p ∧ o.owes .big = true ∧ q ≠ bb then bigBlind else 0 := by
  have dead : ((if q ≠ sb then [(⟨q, smallBlind, false⟩ : ForcedPost)] else []).filter (·.live)) = [] := by
    split <;> rfl
  have live : Ledger.credited (postAmounts ((if q ≠ bb then [(⟨q, bigBlind, true⟩ : ForcedPost)] else []).filter (·.live))) p =
      if q = p ∧ q ≠ bb then bigBlind else 0 := by
    by_cases hq : q = bb
    · simp [hq]
    · by_cases hp : q = p
      · subst hp
        simp [hq]
      · simp [hq, hp]
  cases o with
  | clear => rw [if_neg (by simp [BlindObligation.owes])]; rfl
  | owesSmallBlind => rw [BlindObligation.posts, dead, if_neg (by simp [BlindObligation.owes])]; rfl
  | owesBigBlind => rw [BlindObligation.posts, live]; simp [BlindObligation.owes]
  | owesBoth => rw [BlindObligation.posts, List.filter_append, dead, List.nil_append, live]; simp [BlindObligation.owes]

/-- A seat's live posts are the big blind it owes, posted unless it is the big blind anyway. -/
theorem forcedPosts_live (hn : (obligations.map (·.1)).Nodup) :
    (∀ o, (p, o) ∈ obligations → Ledger.credited (postAmounts ((forcedPosts sb bb obligations).filter (·.live))) p =
      if o.owes .big = true ∧ p ≠ bb then bigBlind else 0) ∧
    (p ∉ obligations.map (·.1) → Ledger.credited (postAmounts ((forcedPosts sb bb obligations).filter (·.live))) p = 0) := by
  induction obligations with
  | nil => exact ⟨(fun o h => nomatch h), fun _ => rfl⟩
  | cons entry rest ih =>
    obtain ⟨hnew, hn⟩ : entry.1 ∉ rest.map (·.1) ∧ (rest.map (·.1)).Nodup := List.nodup_cons.mp hn
    obtain ⟨hin, hout⟩ := ih hn
    have hsplit : Ledger.credited (postAmounts ((forcedPosts sb bb (entry :: rest)).filter (·.live))) p =
        (if entry.1 = p ∧ entry.2.owes .big = true ∧ entry.1 ≠ bb then bigBlind else 0) +
          Ledger.credited (postAmounts ((forcedPosts sb bb rest).filter (·.live))) p := by
      rw [forcedPosts, List.flatMap_cons, List.filter_append, postAmounts_append, Ledger.credited_append, posts_live]
      rfl
    rw [hsplit]
    constructor
    · intro o hmem
      rcases List.mem_cons.mp hmem with rfl | hmem
      · rw [hout hnew, Nat.add_zero]
        simp
      · have hne : entry.1 ≠ p := by
          intro he
          rw [he] at hnew
          exact hnew (List.mem_map_of_mem (f := (·.1)) hmem)
        rw [if_neg fun h => hne h.1, Nat.zero_add]
        exact hin o hmem
    · intro hnone
      rw [List.map_cons, List.mem_cons, not_or] at hnone
      rw [if_neg fun h => hnone.1 h.1.symm, Nat.zero_add]
      exact hout hnone.2

end posts

/-! ## The street before anybody acts -/

namespace MultiwayHand

section street
variable {c : HandConfig} {h h' base table : MultiwayHand} {sb bb first p q : SeatId} {chips n : Nat}
  {seats : List (Option MultiwaySeatState)} {posts : List ForcedPost}

theorem commitChips_paid (hp : occupiedIn h.seats p = true) (hn : n ≤ (h.seat p).stack) (q : SeatId) :
    ((h.commitChips p n).seat q).streetContribution = (h.seat q).streetContribution + (if p = q then n else 0) ∧
      ((h.commitChips p n).seat q).stack + (if p = q then n else 0) = (h.seat q).stack := by
  by_cases hq : q = p
  · subst hq
    rw [seat_commitChips_self hp, Nat.min_eq_left hn, if_pos rfl]
    exact ⟨rfl, Nat.sub_add_cancel hn⟩
  · rw [seat_commitChips_ne hq, if_neg (Ne.symm hq)]
    exact ⟨rfl, rfl⟩

theorem commitDeadChips_paid (hp : occupiedIn h.seats p = true) (hn : n ≤ (h.seat p).stack) (q : SeatId) :
    ((h.commitDeadChips p n).seat q).streetContribution = (h.seat q).streetContribution ∧
      ((h.commitDeadChips p n).seat q).stack + (if p = q then n else 0) = (h.seat q).stack := by
  by_cases hq : q = p
  · subst hq
    rw [seat_commitDeadChips_self hp, Nat.min_eq_left hn, if_pos rfl]
    exact ⟨rfl, Nat.sub_add_cancel hn⟩
  · rw [seat_commitDeadChips_ne hq, if_neg (Ne.symm hq)]
    exact ⟨rfl, rfl⟩

/-- Seats that can pay their posts have the live ones in front of them. -/
theorem postForced_street (hok : postForced posts h = .ok h')
    (hcover : ∀ p, Ledger.credited (postAmounts posts) p ≤ (h.seat p).stack) (p : SeatId) :
    (h'.seat p).streetContribution = (h.seat p).streetContribution + Ledger.credited (postAmounts (posts.filter (·.live))) p := by
  induction posts generalizing h with
  | nil =>
    cases hok
    rfl
  | cons post posts ih =>
    rw [postForced] at hok
    split at hok
    · cases hok
    rename_i hseat
    have hocc : occupiedIn h.seats post.seat = true := by
      have hmem : post.seat ∈ h.occupiedSeats := by simpa using hseat
      exact (List.mem_filter.mp hmem).2
    have hasked : ∀ q, (if post.seat = q then post.amount else 0) + Ledger.credited (postAmounts posts) q ≤ (h.seat q).stack := by
      intro q
      have hle := hcover q
      rwa [postAmounts_cons, Ledger.credited_cons] at hle
    have hfits : post.amount ≤ (h.seat post.seat).stack := by
      have hle := hasked post.seat
      rw [if_pos rfl] at hle
      omega
    cases hlive : post.live with
    | true =>
      rw [hlive, if_pos rfl] at hok
      have hpaid := commitChips_paid hocc hfits
      rw [ih hok fun q => by have := hasked q; have := (hpaid q).2; omega, (hpaid p).1, List.filter_cons_of_pos hlive,
        postAmounts_cons, Ledger.credited_cons, Nat.add_assoc]
    | false =>
      rw [hlive, if_neg Bool.false_ne_true] at hok
      have hpaid := commitDeadChips_paid hocc hfits
      rw [ih hok fun q => by have := hasked q; have := (hpaid q).2; omega, (hpaid p).1,
        List.filter_cons_of_neg (by simp [hlive])]

/-- What a seat of a configuration without antes is asked to post. -/
def asks (c : HandConfig) (sb bb p : SeatId) : Nat :=
  (if sb = p then c.blindValues.smallBlind else 0) + (if bb = p then c.blindValues.bigBlind else 0) +
    Ledger.credited (postAmounts c.forcedPosts) p

/-- Each seat has its blind and its live posts in front of it. -/
theorem Built.street (hdeck : c.deck.Shuffled) (hb : Built c seats chips sb bb first table h)
    (hante : c.blindValues.ante = 0) (hcover : ∀ p, asks c sb bb p ≤ c.start p) (p : SeatId) :
    (table.seat p).streetContribution = (if sb = p then c.blindValues.smallBlind else 0) +
      (if bb = p then c.blindValues.bigBlind else 0) + Ledger.credited (postAmounts (c.forcedPosts.filter (·.live))) p := by
  obtain ⟨hd, hsb, hbb, _⟩ := hb.dealtIn hdeck
  have hposts := hb.posts
  generalize c.dealtTo seats chips sb bb = base at *
  have hframe := hd.frame
  have hsmall : base.smallBlind = sb := by rw [hframe]; rfl
  have hbig : base.bigBlind = bb := by rw [hframe]; rfl
  have hvalues : base.blindValues = c.blindValues := by rw [hframe]; rfl
  have hnew : ∀ q, (base.seat q).streetContribution = 0 ∧ (base.seat q).stack = c.start q := by
    intro q
    cases hocc : occupiedIn base.seats q with
    | true => rw [hd.seat q hocc]; exact ⟨rfl, rfl⟩
    | false =>
      have hnone : c.seatStacks.lookup q = none := by simpa [hd.occupied] using hocc
      rw [MultiwayHand.seat, seatOf_vacant hocc, HandConfig.start, hnone]
      exact ⟨rfl, rfl⟩
  have hantes : base.postAntes = base := by rw [postAntes, hvalues, hante, if_neg (Nat.lt_irrefl 0)]
  have hasked := fun q => (show asks c sb bb q ≤ _ from hcover q)
  rw [hantes, postBlinds, hsmall, hbig, hvalues] at hposts
  have hfirst : c.blindValues.smallBlind ≤ (base.seat sb).stack := by
    have hle := hasked sb
    rw [asks, if_pos rfl] at hle
    rw [(hnew sb).2]
    omega
  have hpaid := commitChips_paid hsb hfirst
  have hocc : occupiedIn (base.commitChips sb c.blindValues.smallBlind).seats bb = true := by
    rw [(commitChips_table base sb _).occupied]
    exact hbb
  have hsecond : c.blindValues.bigBlind ≤ ((base.commitChips sb c.blindValues.smallBlind).seat bb).stack := by
    have hle := hasked bb
    have hleft := (hpaid bb).2
    rw [asks, if_pos (rfl : bb = bb)] at hle
    rw [(hnew bb).2] at hleft
    omega
  have hpaid' := commitChips_paid hocc hsecond
  rw [postForced_street hposts fun q => by
    have hle := hasked q
    have h1 := (hpaid q).2
    have h2 := (hpaid' q).2
    rw [(hnew q).2] at h1
    rw [asks] at hle
    omega, (hpaid' p).1, (hpaid p).1, (hnew p).1, Nat.zero_add]

/-- The hand keeps the table's seats and its first wager. -/
theorem Built.opensWith (hdeck : c.deck.Shuffled) (hb : Built c seats chips sb bb first table h) :
    h.smallBlind = sb ∧ h.bigBlind = bb ∧ (∀ p, h.seat p = table.seat p) ∧ h.currentWager = table.wagerPosted := by
  have hframe := (hb.posting hdeck).frame (hb.dealtIn hdeck).1
  have hsmall : (table.started first).smallBlind = sb := congrArg (·.smallBlind) hframe
  have hbig : (table.started first).bigBlind = bb := congrArg (·.bigBlind) hframe
  rcases hb.opens hdeck with ⟨_, rfl⟩ | ⟨_, _, hopened⟩
  · exact ⟨hsmall, hbig, fun _ => rfl, rfl⟩
  · refine ⟨?_, ?_, fun p => ?_, ?_⟩ <;> rw [hopened]
    · exact hsmall
    · exact hbig
    · rfl
    · rfl

/-- The first wager is what the seat with most has in front of it. -/
theorem Built.wager (hdeck : c.deck.Shuffled) (hb : Built c seats chips sb bb first table h) :
    (∀ p, (table.seat p).streetContribution ≤ table.wagerPosted) ∧
      (0 < table.wagerPosted → ∃ p, (table.seat p).streetContribution = table.wagerPosted) := by
  have hfresh := ((hb.posting hdeck).fresh (hb.dealtIn hdeck).1 first).sound
  refine ⟨hfresh.bet_le, fun hpos => ?_⟩
  obtain ⟨p, _, hp⟩ := hfresh.holder hpos
  exact ⟨p, hp⟩

/-- The street of a hand built from a table's start: each seat has its blind and its live
    posts in front of it, and the wager is the most that anybody has. -/
structure FirstStreet (posts : List ForcedPost) (h : MultiwayHand) : Prop where
  formula : ∀ p, (h.seat p).streetContribution = (if h.smallBlind = p then OpenFelt.smallBlind else 0) +
    (if h.bigBlind = p then OpenFelt.bigBlind else 0) + Ledger.credited (postAmounts (posts.filter (·.live))) p
  most : ∀ p, (h.seat p).streetContribution ≤ h.currentWager
  held : 0 < h.currentWager → ∃ p, (h.seat p).streetContribution = h.currentWager

/-- A hand whose seats can pay what they are asked opens with that street. -/
theorem build_firstStreet {start : HandStart} {tableSize : TableSize} {deck : Deck} (hdeck : deck.Shuffled)
    (hb : (start.intoHand tableSize .default deck).build = .ok h)
    (hcover : ∀ p, start.asked h p ≤ (start.seatStacks.lookup p).getD 0) : FirstStreet start.forcedPosts h := by
  obtain ⟨seats, chips, sb, bb, first, table, hbuilt⟩ := build_built hb
  obtain ⟨hsmall, hbig, hseat, hwager⟩ := hbuilt.opensWith hdeck
  obtain ⟨hle, hheld⟩ := hbuilt.wager hdeck
  have hstreet := hbuilt.street hdeck rfl fun p => by
    have hle := hcover p
    rw [HandStart.asked, hsmall, hbig] at hle
    exact hle
  refine ⟨fun p => ?_, fun p => ?_, fun hpos => ?_⟩
  · rw [hseat, hsmall, hbig]
    exact hstreet p
  · rw [hseat, hwager]
    exact hle p
  · rw [hwager] at hpos
    obtain ⟨p, hp⟩ := hheld hpos
    exact ⟨p, by rw [hseat, hwager, hp]⟩

/-- Where nobody posts more live than a big blind, and the big blind nothing, the price is a
    big blind exactly when the small blind posts nothing live. -/
theorem FirstStreet.opens_iff (hs : FirstStreet posts h) (hne : h.bigBlind ≠ h.smallBlind)
    (hextra : ∀ p, Ledger.credited (postAmounts (posts.filter (·.live))) p = 0 ∨
      p ≠ h.bigBlind ∧ Ledger.credited (postAmounts (posts.filter (·.live))) p = OpenFelt.bigBlind) :
    OpensAtBigBlind h ↔ Ledger.credited (postAmounts (posts.filter (·.live))) h.smallBlind = 0 := by
  have hsmaller : 0 < OpenFelt.smallBlind ∧ OpenFelt.smallBlind ≤ OpenFelt.bigBlind := by decide
  have hbigOnly : (h.seat h.bigBlind).streetContribution = OpenFelt.bigBlind := by
    rcases hextra h.bigBlind with hnone | ⟨hother, _⟩
    · rw [hs.formula, hnone, if_neg hne.symm, if_pos rfl, Nat.zero_add, Nat.add_zero]
    · exact absurd rfl hother
  constructor
  · intro hopens
    rcases hextra h.smallBlind with hnone | ⟨_, hposts⟩
    · exact hnone
    · -- the blind and the live post together are more than a big blind
      have htop := hopens.most h.smallBlind
      rw [hs.formula, if_pos rfl, if_neg hne, hposts] at htop
      omega
  · intro hclear
    have hmost : ∀ p, (h.seat p).streetContribution ≤ OpenFelt.bigBlind := by
      intro p
      by_cases hsb : h.smallBlind = p
      · rw [hs.formula, if_pos hsb, if_neg fun hbb => hne (hbb.trans hsb.symm), ← hsb, hclear]
        omega
      · by_cases hbb : h.bigBlind = p
        · exact Nat.le_of_eq (hbb ▸ hbigOnly)
        · rw [hs.formula, if_neg hsb, if_neg hbb, Nat.zero_add]
          rcases hextra p with hnone | ⟨_, hposts⟩
          · rw [hnone]
            exact Nat.zero_le _
          · exact Nat.le_of_eq hposts
    have hreached : OpenFelt.bigBlind ≤ h.currentWager := hbigOnly ▸ hs.most h.bigBlind
    obtain ⟨p, hp⟩ := hs.held (Nat.lt_of_lt_of_le (by decide) hreached)
    exact ⟨Nat.le_antisymm (hp ▸ hmost p) hreached, hbigOnly, hmost⟩

end street

end MultiwayHand

/-! ## The price of a run's hands -/

namespace TableLifecycle

section price
variable {t : TableLifecycle} {start : HandStart} {deck : Deck} {h : MultiwayHand}

theorem nodup_dealtObligations (t : TableLifecycle) : (t.dealtObligations.map (·.1)).Nodup :=
  t.seats.nodup_kept (·.eligibleForNextHand) (·.blindObligation)

/-- The blinds are two of the players dealt in. -/
theorem positions_dealt {s : TableSeats} {b : SeatId} {positions : HandPositions} (hb : s.eligible b = true)
    (hcount : 2 ≤ s.eligibleCount) (h : s.positions b = .ok positions) :
    s.eligible positions.smallBlind = true ∧ positions.bigBlind ≠ positions.smallBlind := by
  obtain ⟨_, _, hblinds⟩ := TableSeats.positions_spec hb hcount h
  split at hblinds
  · obtain ⟨hsmall, _, hbig⟩ := hblinds
    rw [hsmall]
    exact ⟨hb, (TableSeats.nextForHand_eligible hbig).2⟩
  · obtain ⟨hsmall, hbig⟩ := hblinds
    exact ⟨(TableSeats.nextForHand_eligible hsmall).1, (TableSeats.nextForHand_eligible hbig).2⟩

/-- What a begun hand's posts put live in front of a seat: a big blind at most, and nothing
    in front of the big blind. -/
theorem live_posted {posts : List ForcedPost} {sb bb : SeatId} (hposts : posts = forcedPosts sb bb t.dealtObligations)
    (p : SeatId) : Ledger.credited (postAmounts (posts.filter (·.live))) p = 0 ∨
      p ≠ bb ∧ Ledger.credited (postAmounts (posts.filter (·.live))) p = bigBlind := by
  obtain ⟨hin, hout⟩ := @forcedPosts_live sb bb p _ t.nodup_dealtObligations
  rw [← hposts] at hin hout
  by_cases hmem : p ∈ t.dealtObligations.map (·.1)
  · obtain ⟨⟨q, o⟩, ho, rfl⟩ := List.mem_map.mp hmem
    rw [hin _ ho]
    by_cases howes : o.owes .big = true ∧ q ≠ bb
    · exact Or.inr ⟨howes.2, if_pos howes⟩
    · exact Or.inl (if_neg howes)
  · exact Or.inl (hout hmem)

/-- A seat dealt in that is not the big blind posts nothing live exactly when it owes no big blind. -/
theorem live_posted_iff {posts : List ForcedPost} {sb bb p : SeatId} {st : SeatState}
    (hposts : posts = forcedPosts sb bb t.dealtObligations) (hst : t.seats.seat p = some st)
    (hel : st.eligibleForNextHand = true) (hne : p ≠ bb) :
    Ledger.credited (postAmounts (posts.filter (·.live))) p = 0 ↔ ¬ st.blindObligation.owes .big = true := by
  obtain ⟨hin, _⟩ := @forcedPosts_live sb bb p _ t.nodup_dealtObligations
  rw [hposts, hin _ (mem_dealtObligations.mpr ⟨st, hst, hel, rfl⟩)]
  by_cases howes : st.blindObligation.owes .big = true
  · rw [if_pos ⟨howes, hne⟩]
    exact ⟨fun h => absurd h (by decide), fun h => absurd howes h⟩
  · rw [if_neg fun h => howes h.1]
    exact ⟨fun _ => howes, fun _ => rfl⟩

/-- In every hand begun in a run whose seats can pay what they are asked, a returning player leaves the price at
    one big blind exactly when the small blind owes no big blind. -/
theorem run_price (hs : t.Starts) (ops : List LifecycleOp) (hbegin : (t.run ops).beginHand.1 = .ok start)
    (hdeck : deck.Shuffled) (hb : (start.intoHand (t.run ops).tableSize .default deck).build = .ok h)
    (hcover : ∀ p, start.asked h p ≤ (start.seatStacks.lookup p).getD 0) :
    OpensAtBigBlind h ↔ ¬ (t.run ops).SmallBlindOwesBig := by
  have hring := hs.ring.run ops
  generalize t.run ops = t at *
  obtain ⟨positions, hpos⟩ := hring.positioned hbegin
  obtain ⟨hcount, hstart, _⟩ := beginHand_started hbegin
  obtain ⟨hbutton, heligible, _⟩ := hring.promote.beginHand_positions hcount
  have hplays := hpos.played _ _ _ hdeck hb
  have hfound := hpos.found
  rw [hstart] at hfound
  obtain ⟨hdealt, hne⟩ := positions_dealt heligible hcount hfound
  obtain ⟨st, hst, hel⟩ := TableSeats.eligible_iff.mp hdealt
  have hfirst := build_firstStreet hdeck hb hcover
  rw [hfirst.opens_iff (by rw [hplays.smallBlind, hplays.bigBlind]; exact hne)
      (by rw [hplays.bigBlind]; exact live_posted hpos.posts),
    hplays.smallBlind, live_posted_iff hpos.posts hst hel hne.symm]
  refine not_congr ⟨fun howes => ⟨_, positions, st, hbutton, hfound, hst, howes⟩, ?_⟩
  rintro ⟨button, positions', st', hnext, hfound', hst', howes⟩
  obtain rfl := Option.some.inj (hbutton.symm.trans hnext)
  obtain rfl := Except.ok.inj (hfound.symm.trans hfound')
  obtain rfl := Option.some.inj (hst.symm.trans hst')
  exact howes

/-- Two players, and a third who pays to come in on the seat of the next small blind. -/
def paidIn : List LifecycleOp := [.join ⟨1⟩ 0 100, .join ⟨2⟩ 1 100, .beginHand, .completeHand [(0, 100), (1, 100)],
  .joinWithEntry ⟨3⟩ 2 100 .postLiveBigBlind]

/-- The hand that follows. -/
def paidInStart : HandStart := ⟨2, 1, [(0, 100), (1, 100), (2, 100)], [⟨2, 2, true⟩]⟩

theorem paidIn_begins : ((new ⟨3, by decide, by decide⟩).run paidIn).beginHand.1 = .ok paidInStart := by decide +kernel

theorem paidIn_builds : ∃ h,
    (paidInStart.intoHand ((new ⟨3, by decide, by decide⟩).run paidIn).tableSize .default .new).build = .ok h ∧
    (∀ p, paidInStart.asked h p ≤ (paidInStart.seatStacks.lookup p).getD 0) ∧ h.currentWager = 3 := by
  have hbuild : ((paidInStart.intoHand ((new ⟨3, by decide, by decide⟩).run paidIn).tableSize .default .new).build.toOption.map
      fun h => (h.smallBlind, h.bigBlind, h.currentWager)) = some (2, 0, 3) := by decide +kernel
  cases hb : (paidInStart.intoHand ((new ⟨3, by decide, by decide⟩).run paidIn).tableSize .default .new).build with
  | error error => rw [hb] at hbuild; cases hbuild
  | ok h =>
    rw [hb] at hbuild
    have hall := Option.some.inj hbuild
    simp only [Prod.mk.injEq] at hall
    obtain ⟨hsmall, hbig, hwager⟩ := hall
    refine ⟨h, rfl, fun p => ?_, hwager⟩
    rw [HandStart.asked, hsmall, hbig]
    revert p
    decide

theorem run_price_paid_in : ∃ h,
    (paidInStart.intoHand ((new ⟨3, by decide, by decide⟩).run paidIn).tableSize .default .new).build = .ok h ∧
      (OpensAtBigBlind h ↔ ¬ ((new ⟨3, by decide, by decide⟩).run paidIn).SmallBlindOwesBig) := by
  obtain ⟨h, hb, hcover, _⟩ := paidIn_builds
  exact ⟨h, hb, run_price (.new _) paidIn paidIn_begins ⟨.refl _, rfl⟩ hb hcover⟩

/-- They have three chips in front of them, and so must everybody else. -/
theorem paid_twice : ∃ h, ((new ⟨3, by decide, by decide⟩).run paidIn).beginHand.1 = .ok paidInStart ∧
    (paidInStart.intoHand ((new ⟨3, by decide, by decide⟩).run paidIn).tableSize .default .new).build = .ok h ∧
      (∀ p, paidInStart.asked h p ≤ (paidInStart.seatStacks.lookup p).getD 0) ∧ h.currentWager = 3 ∧ ¬ OpensAtBigBlind h := by
  obtain ⟨h, hb, hcover, hwager⟩ := paidIn_builds
  refine ⟨h, paidIn_begins, hb, hcover, hwager, fun hopens => ?_⟩
  have hprice := hopens.wager
  rw [hwager] at hprice
  cases hprice

end price

end TableLifecycle

end OpenFelt
