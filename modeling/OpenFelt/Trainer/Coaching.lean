/-
  OpenFelt.Trainer.Coaching — the local review of a decision (`src/trainer/coaching.rs`),
  and the check of a review (`src/trainer/provider.rs`, `validate_feedback`).

  A text is lowered letter by letter: no letter outside ASCII lowers to one of a banned
  word alone.

  Proved (`local_review_keeps_contract`): whatever the session, the review of a decision
  it accepts passes the check and suggests another kind of action than the one taken
  exactly where `AlternativeFits`: before the flop a fold is suggested only where it is
  legal and was not what the player did, and `check_call` is not suggested to a player
  who was all-in because the price took the whole stack.
-/

import OpenFelt.Bot.Draws
import OpenFelt.Lib.Numerals
import OpenFelt.Lib.Texts
import OpenFelt.Trainer.HandsGoOn

namespace OpenFelt.Trainer

/-! ## What a review reads -/

inductive PreflopBand where
  | fold
  | lateOpen
  | opening
  | strong
  | premium
  deriving DecidableEq, Repr

namespace PreflopBand

def level : PreflopBand → Nat
  | fold => 0
  | lateOpen => 1
  | opening => 2
  | strong => 3
  | premium => 4

end PreflopBand

def preflopBand (o : Observation) : PreflopBand :=
  match o.holeCards with
  | a :: b :: _ =>
    let hi := max a.rank.value b.rank.value
    let lo := min a.rank.value b.rank.value
    let pair := a.rank = b.rank
    let suited := a.suit = b.suit
    let gap := hi - lo
    if (pair ∧ 10 ≤ hi) ∨ (hi = 14 ∧ 12 ≤ lo) then .premium
    else if (pair ∧ 7 ≤ hi) ∨ (12 ≤ hi ∧ 10 ≤ lo) ∨ (hi = 14 ∧ suited ∧ 10 ≤ lo) then .strong
    else if pair ∨ (hi = 14 ∧ 10 ≤ lo) ∨ (suited ∧ 10 ≤ hi ∧ 9 ≤ lo) then .opening
    else if (hi = 14 ∧ suited) ∨ (suited ∧ 7 ≤ hi ∧ gap ≤ 2) ∨ (hi = 13 ∧ 9 ≤ lo) then .lateOpen
    else .fold
  -- an observation holds two cards
  | _ => .fold

inductive ActionKind where
  | fold
  | check
  | call
  | raise
  | allIn
  deriving DecidableEq, Repr

def ActionKind.text : ActionKind → String
  | fold => "fold"
  | check => "check"
  | call => "call"
  | raise => "raise"
  | allIn => "all-in"

def actionKind : Action → ActionKind
  | .fold => .fold
  | .check => .check
  | .call _ => .call
  | .bet _ | .raise _ => .raise
  | .allIn _ => .allIn

/-- `has_prior_raise` is `Observation.raised`. -/
def hasPriorLimp (o : Observation) : Bool := o.history.any fun entry => actionKind entry.2 = .call

def priceDescription (d : Decision) : String :=
  if d.facts.callCost = 0 then "no additional call"
  else if saturatingMul d.facts.callCost 4 ≤ d.facts.contestablePotAfterCall then "a relatively small call"
  else "a material call"

def stackDescription (d : Decision) : String :=
  let shortest := ((d.facts.effectiveRemainingByOpponent.map (·.2)).min?).getD 0
  if shortest ≤ saturatingMul d.observation.bigBlindChips 12 then "short effective stacks" else "room for later betting"

def madeLabel : HandRank → String
  | .highCard => "a high-card hand"
  | .pair => "one pair"
  | .twoPair => "two pair"
  | .threeOfAKind => "three of a kind"
  | .straight => "a straight"
  | .flush => "a flush"
  | .fullHouse => "a full house"
  | .fourOfAKind => "four of a kind"
  | .straightFlush => "a straight flush"

def drawLabel (flush openEnded gutshot : Bool) : String :=
  if flush then
    if openEnded || gutshot then "a flush draw and a straight draw" else "a flush draw"
  else if openEnded then "an open-ended straight draw"
  else if gutshot then "a gutshot straight draw"
  else "no flush or open-ended straight draw"

def boardTexture (board : List Card) : String :=
  if board.length < 3 then "The board is not complete."
  else
    let paired := board.any fun card => 2 ≤ rankCount board card.rank
    let suited := board.any fun card => 3 ≤ suitCount board card.suit
    if paired then
      if suited then "The public board is paired and has several cards of one suit." else "The public board is paired."
    else if suited then "The public board has several cards of one suit."
    else "The public board is unpaired."

def altFold (o : Observation) : Option String := if o.legal.canFold then some "fold" else none

def altRaise (o : Observation) : Option String :=
  if o.legal.minRaiseTo.isSome || o.legal.minBetTo.isSome then some "raise" else none

/-! ## The review -/

/-- What a review says apart from whose it is. -/
structure Advice where
  assessment : String
  concept : String
  explanation : String
  alternative : Option String
  deriving DecidableEq, Repr

def facingRaise (band : PreflopBand) (action : ActionKind) (price stack : String) : Advice :=
  let concept := "Preflop facing a raise"
  if band = .premium ∧ (action = .raise ∨ action = .allIn) then
    ⟨"reasonable", concept,
      "This hand is in the trainer's strongest starting band. " ++
        "Re-raising can build the pot with a strong holding; stack depth and the raiser's range still matter.",
      some "check_call"⟩
  else if (band = .fold ∨ band = .lateOpen) ∧ action = .fold then
    ⟨"reasonable", concept,
      "This hand is outside the trainer's continue range against prior aggression. " ++
        "Folding avoids paying with a hand that is often dominated.", none⟩
  else if band = .fold ∧ (action = .call ∨ action = .raise ∨ action = .allIn) then
    ⟨"reconsider", concept,
      "This hand is in the trainer's weakest band. Continuing needs a specific read this local heuristic does not have.",
      some "fold"⟩
  else
    ⟨"uncertain", concept,
      "This spot can be close against prior aggression with " ++ price ++ " and " ++ stack ++
        ". The raiser's range can change the choice.", some "fold"⟩

def afterLimpers (band : PreflopBand) (action : ActionKind) (price stack : String) : Advice :=
  let concept := "Preflop after limpers"
  if (band = .strong ∨ band = .premium) ∧ action = .raise then
    ⟨"reasonable", concept,
      "This strong starting band can raise over limpers for value. " ++ stack ++
        " affects how readily stacks may become committed.", some "check_call"⟩
  else if band = .fold ∧ (action = .call ∨ action = .raise ∨ action = .allIn) then
    ⟨"reconsider", concept,
      "Limped action does not make the weakest starting band automatically playable, even with " ++ price ++ ".",
      some "fold"⟩
  else
    ⟨"uncertain", concept,
      "Prior callers mean this is not an unopened pot. Weigh position, " ++ price ++ ", and " ++ stack ++
        " before adding chips.", some "fold"⟩

namespace TablePosition

/-- The least band to open with. -/
def required : TablePosition → PreflopBand
  | early => .strong
  | middle => .opening
  | late => .lateOpen
  | smallBlind => .opening
  | bigBlind => .lateOpen

def text : TablePosition → String
  | early => "early position"
  | middle => "middle position"
  | late => "late position"
  | smallBlind => "the small blind"
  | bigBlind => "the big blind"

end TablePosition

def unopened (band : PreflopBand) (pos : TablePosition) (action : ActionKind) (canRaise : Bool) : Advice :=
  let concept := "Preflop position-aware opening"
  let position := pos.text
  let taken := action.text
  let opens : Prop := pos.required.level ≤ band.level
  if opens ∧ action = .raise then
    ⟨"reasonable", concept,
      "Raising is a reasonable way to enter an unopened pot with this hand from " ++ position ++
        ". The local guide favors playing it for a raise.", none⟩
  else if ¬opens ∧ action = .fold then
    ⟨"reasonable", concept,
      "Folding saves chips with a hand the local guide usually folds from " ++ position ++
        ". You can play more hands when fewer players remain behind you.", none⟩
  else if ¬opens ∧ (action = .call ∨ action = .raise ∨ action = .allIn) then
    ⟨"reconsider", concept,
      "Consider folding: the local guide treats this hand as too weak to enter from " ++ position ++
        ". A specific read on your opponents could change that advice.", some "fold"⟩
  else
    ⟨"uncertain", concept,
      "Consider raising: the local guide includes this hand among those to open from " ++ position ++
        ". It cannot confidently judge your " ++ taken ++ " without knowing your opponents.",
      if canRaise then some "raise" else none⟩

def preflopAdvice (d : Decision) : Advice :=
  let o := d.observation
  let band := preflopBand o
  let action := actionKind d.acceptedAction
  if o.raised then facingRaise band action (priceDescription d) (stackDescription d)
  else if hasPriorLimp o then afterLimpers band action (priceDescription d) (stackDescription d)
  else unopened band o.tablePosition action o.legal.minRaiseTo.isSome

section postflop
variable (made draw texture place price : String) (strong weak : Bool)

def bettingAdvice : Advice :=
  if strong then
    ⟨"reasonable", "Postflop: value betting",
      "Betting " ++ made ++ " can ask worse hands to continue for value. " ++ texture ++ " You are " ++ place ++
        ". Unknown ranges can still change whether this is the size or the line to choose.", some "check_call"⟩
  else if weak then
    ⟨"reconsider", "Postflop: betting purpose",
      "Betting " ++ made ++ " with " ++ draw ++
        " needs a better hand that can fold. This heuristic cannot see that target. " ++ texture, some "check_call"⟩
  else
    ⟨"uncertain", "Postflop: betting purpose",
      "A bet with " ++ made ++ " and " ++ draw ++ " can be value, a bluff, or both. " ++ price ++ " " ++ texture ++
        " Name the hands that continue or fold before treating one purpose as established.", some "check_call"⟩

def callingAdvice (costs : Bool) (altFold altRaise : Option String) : Advice :=
  if strong then
    ⟨"reasonable", "Postflop calling price",
      "Calling with " ++ made ++ " continues with a strong shown hand and " ++ price ++
        ". A raise is a separate value plan, not required by this rule.", altRaise⟩
  else if weak && costs then
    ⟨"reconsider", "Postflop calling price",
      "Calling with " ++ made ++ " and " ++ draw ++ " pays " ++ price ++ ". " ++ texture ++
        " Continuing needs a reason this heuristic does not have.", altFold⟩
  else
    ⟨"uncertain", "Postflop calling price",
      "The call uses " ++ price ++ " with " ++ made ++ " and " ++ draw ++ ". " ++ texture ++
        " Whether that price is attractive depends on ranges and future action, which this rule does not score.",
      altFold.or altRaise⟩

def checkingAdvice (altRaise : Option String) : Advice :=
  if strong then
    ⟨"uncertain", "Postflop: value betting",
      "Checking " ++ made ++ " can trap or miss a value bet. Both can be defensible " ++ place ++ ". " ++ texture,
      altRaise⟩
  else
    ⟨"reasonable", "Postflop: free continuation",
      "Checking adds no chips with " ++ made ++ " and " ++ draw ++ ". " ++ texture ++
        " Reassess after later players act.", altRaise⟩

def foldingAdvice (costs : Bool) : Advice :=
  if strong then
    ⟨"reconsider", "Postflop: folding",
      "Folding " ++ made ++ " gives up this pot. A continue was available. " ++ texture ++
        " Future cards stay out of this review.", some "check_call"⟩
  else if costs && weak then
    ⟨"reasonable", "Postflop: folding",
      "Folding " ++ made ++ " with " ++ draw ++ " avoids " ++ price ++ ". " ++ texture ++
        " Future cards stay out of this review.", some "check_call"⟩
  else
    ⟨"uncertain", "Postflop: folding",
      "Folding preserves the remaining stack with " ++ made ++ " and " ++ draw ++ ". " ++ texture ++
        " This rule does not prove the fold is required.", some "check_call"⟩

end postflop

def postflopAdvice (d : Decision) : Advice :=
  let o := d.observation
  let rank := (evaluateHand o.holeCards o.board).rank
  let draws := detectDraws o.holeCards o.board
  let made := madeLabel rank
  let draw := drawLabel draws.flushDraw draws.oesd draws.gutshot
  let texture := boardTexture o.board
  let place := if o.tablePosition = .late then "later position" else "with players still to act"
  let price := priceDescription d
  let strong : Bool := HandRank.twoPair.value ≤ rank.value
  let paired : Bool := HandRank.pair.value ≤ rank.value
  let liveDraw := draws.flushDraw || draws.oesd
  let weak := !paired && !liveDraw
  let costs : Bool := 0 < d.facts.callCost
  match actionKind d.acceptedAction with
  | .raise | .allIn => bettingAdvice made draw texture place price strong weak
  | .call => callingAdvice made draw texture price strong weak costs (altFold o) (altRaise o)
  | .check => checkingAdvice made draw texture place strong (altRaise o)
  | .fold => foldingAdvice made draw texture price strong weak costs

def preflopAssumptions : List String :=
  ["Agent-reviewed deterministic starting-hand bands; not a numerical strength calculation.",
    "Opponent ranges and table-specific reads are unknown."]

def postflopAssumptions : List String :=
  ["Made-hand category and draw labels use only your cards and the current board.",
    "No opponent range, future card, or numeric chance of winning is evaluated."]

def Advice.feedback (advice : Advice) (assumptions : List String) (o : Observation) : Feedback where
  version := 1
  handId := o.handId
  revision := o.revision
  assessment := advice.assessment
  explanation := advice.explanation
  concept := advice.concept
  assumptions := assumptions
  evidenceBasis := "heuristic"
  alternativeAction := advice.alternative

def feedback (d : Decision) : Feedback :=
  if d.observation.phase ≠ .preflop then (postflopAdvice d).feedback postflopAssumptions d.observation
  else (preflopAdvice d).feedback preflopAssumptions d.observation

/-! ## The check -/

def isControl (c : Char) : Bool := c.toNat < 32 || (127 ≤ c.toNat && c.toNat < 160)

def bannedClaims : List String := ["gto", "solver", "optimal", "%", "equity", "expected value"]

/-- A text of over 1200 bytes, with a control character or a digit, or with a claim that is banned. -/
def unsafeText (text : String) : Bool :=
  let lower := text.toList.map Char.toLower
  1200 < text.utf8ByteSize || text.toList.any (fun c => isControl c || c.isDigit) ||
    bannedClaims.any fun claim => claim.toList <:+: lower

def validateFeedback (f : Feedback) (d : Decision) : Except String Unit :=
  let legal := d.observation.legal
  if f.version ≠ 1 ∨ f.handId ≠ d.observation.handId ∨ f.revision ≠ d.observation.revision then
    .error "Coaching unavailable: stale response"
  else if f.assessment ∉ ["uncertain", "reasonable", "reconsider"] ∨ f.evidenceBasis ≠ "heuristic" ∨
      8 < f.assumptions.length ∨
      f.explanation.isEmpty ∨ f.concept.isEmpty then .error "Coaching unavailable: invalid assessment"
  else if (f.explanation :: f.concept :: (f.assumptions ++ f.alternativeAction.toList)).any unsafeText then
    .error "Coaching unavailable: unsupported claim or unsafe text"
  else
    match f.alternativeAction with
    | none => .ok ()
    | some alternative =>
      let valid : Bool :=
        if alternative = "fold" then legal.canFold
        else if alternative = "check_call" then true
        else if alternative = "raise" then legal.minRaiseTo.isSome || legal.minBetTo.isSome
        else false
      if valid then .ok () else .error "Coaching unavailable: invalid alternative"

/-! ## What a review is held to -/

/-- The kind of action an alternative stands for: `check_call` is the all-in where the price takes the whole stack. -/
def Observation.suggested (o : Observation) (alternative : String) : Option ActionKind :=
  if alternative = "fold" then some .fold
  else if alternative = "check_call" then some (actionKind o.checkCall)
  else if alternative = "raise" then some .raise
  else none

/-- The review passes the check, and suggests another kind of action than the one taken. -/
def Reviewed (f : Feedback) (d : Decision) : Prop :=
  validateFeedback f d = .ok () ∧
    ∀ alternative ∈ f.alternativeAction, d.observation.suggested alternative ≠ some (actionKind d.acceptedAction)

/-- The branches before the flop that suggest a fold. -/
def Decision.FoldAdvised (d : Decision) : Prop :=
  let o := d.observation
  let band := preflopBand o
  let action := actionKind d.acceptedAction
  if o.raised then
    ¬(band = .premium ∧ (action = .raise ∨ action = .allIn)) ∧ ¬((band = .fold ∨ band = .lateOpen) ∧ action = .fold)
  else if hasPriorLimp o then ¬((band = .strong ∨ band = .premium) ∧ action = .raise)
  else ¬o.tablePosition.required.level ≤ band.level ∧ (action = .call ∨ action = .raise ∨ action = .allIn)

/-- The branches that answer an all-in with `check_call`. -/
def Decision.CallAdvised (d : Decision) : Prop :=
  d.observation.phase = .preflop → d.observation.raised = true ∧ preflopBand d.observation = .premium

/-- Before the flop a fold is suggested only where it is legal and was not what the player did, and no call is suggested
    to a player whose all-in was the call. -/
structure Decision.AlternativeFits (d : Decision) : Prop where
  fold : d.observation.phase = .preflop → d.FoldAdvised →
    d.observation.legal.canFold = true ∧ actionKind d.acceptedAction ≠ .fold
  call : actionKind d.acceptedAction = .allIn → actionKind d.observation.checkCall = .allIn → ¬d.CallAdvised

/-! ## The texts -/

/-- Neighbours no review has, one pair of each banned claim but the percent sign. -/
def Apart (c d : Char) : Prop := (c, d) ∉ [('g', 't'), ('l', 'v'), ('p', 't'), ('t', 'y'), ('x', 'p')]

def Gap (c : Char) : Prop := c ∈ [' ', ',', '.']

instance : DecidableRel Apart := fun c d => inferInstanceAs (Decidable ((c, d) ∉ _))

instance : DecidablePred Gap := fun c => inferInstanceAs (Decidable (c ∈ _))

def clean (c : Char) : Bool := !isControl c && !c.isDigit && c.toLower != '%'

def lowered (text : String) : List Char := text.toList.map Char.toLower

/-- Clean characters, in so many pieces of up to 130 bytes. -/
def Pieces (n : Nat) (text : String) : Prop := text.utf8ByteSize ≤ 130 * n ∧ text.toList.all clean = true

def Label (text : String) : Prop := Pieces 1 text ∧ (lowered text).IsChain Apart

def Opening (n : Nat) (text : String) : Prop := Pieces n text ∧ Texts.Opens Apart Gap (lowered text)

def Fragment (text : String) : Prop := Pieces 1 text ∧ Texts.Bridges Apart Gap (lowered text)

/-- A text a review may have. -/
def Fair (text : String) : Prop := text.isEmpty = false ∧ unsafeText text = false

section texts
variable {m n : Nat} {text piece fragment : String} {chars : List Char}

/-! A literal is checked as the list of its characters. -/

/-- Clean characters of one byte each, in so many pieces. -/
def printable (n : Nat) (chars : List Char) : Bool :=
  decide (chars.length ≤ 130 * n) && chars.all fun c => clean c && decide (c.toNat < 128)

theorem Pieces.ofList (h : printable n chars = true) : Pieces n (String.ofList chars) := by
  simp only [printable, Bool.and_eq_true, decide_eq_true_eq, List.all_eq_true] at h
  obtain ⟨hlen, hchars⟩ := h
  have hones : chars.map Char.utf8Size = chars.map fun _ => 1 := by
    refine List.map_congr_left ?_
    intro c hc
    have hval : c.val ≤ 127 := UInt32.le_iff_toNat_le.mpr (Nat.lt_succ_iff.mp (hchars c hc).2)
    simp [Char.utf8Size, hval]
  refine ⟨?_, ?_⟩
  · rw [Numerals.utf8ByteSize_ofList, hones, List.map_const', List.sum_replicate_nat, mul_one]
    exact hlen
  · rw [String.toList_ofList, List.all_eq_true]
    exact fun c hc => (hchars c hc).1

theorem Label.ofList (h : (printable 1 chars && Texts.chained Apart (chars.map Char.toLower)) = true) :
    Label (String.ofList chars) := by
  rw [Bool.and_eq_true] at h
  refine ⟨.ofList h.1, ?_⟩
  rw [lowered, String.toList_ofList]
  exact Texts.isChain_of_chained h.2

theorem Opening.ofList (h : (printable n chars && Texts.opens Apart Gap (chars.map Char.toLower)) = true) :
    Opening n (String.ofList chars) := by
  rw [Bool.and_eq_true] at h
  refine ⟨.ofList h.1, ?_⟩
  rw [lowered, String.toList_ofList]
  exact .of_check h.2

theorem Fragment.ofList (h : (printable 1 chars && Texts.bridges Apart Gap (chars.map Char.toLower)) = true) :
    Fragment (String.ofList chars) := by
  rw [Bool.and_eq_true] at h
  refine ⟨.ofList h.1, ?_⟩
  rw [lowered, String.toList_ofList]
  exact .of_check h.2

theorem apart_of_gap (c d : Char) (h : Gap c ∨ Gap d) : Apart c d := by
  unfold Gap Apart at *
  simp only [List.mem_cons, List.not_mem_nil, or_false, Prod.mk.injEq] at *
  rcases h with (rfl | rfl | rfl) | (rfl | rfl | rfl) <;> simp

theorem Pieces.append (h : Pieces m text) (hpiece : Pieces n piece) : Pieces (m + n) (text ++ piece) := by
  refine ⟨?_, ?_⟩
  · rw [String.utf8ByteSize_append, Nat.mul_add]
    exact Nat.add_le_add h.1 hpiece.1
  · rw [String.toList_append, List.all_append, h.2, hpiece.2]
    rfl

theorem lowered_append : lowered (text ++ piece) = lowered text ++ lowered piece := by
  rw [lowered, String.toList_append, List.map_append]
  rfl

theorem Opening.slot (h : Opening n text) (hpiece : Label piece) (hf : Fragment fragment) :
    Opening (n + 1 + 1) (text ++ piece ++ fragment) := by
  refine ⟨(h.1.append hpiece.1).append hf.1, ?_⟩
  rw [lowered_append, lowered_append]
  exact h.2.slot apart_of_gap hpiece.2 hf.2

theorem fair_of_absent (hpieces : Pieces n text) (hn : n ≤ 9) (hne : lowered text ≠ [])
    (habsent : ∀ claim ∈ bannedClaims, ¬claim.toList <:+: lowered text) : Fair text := by
  obtain ⟨hsize, hclean⟩ := hpieces
  have hchars := List.all_eq_true.mp hclean
  simp only [clean, Bool.and_eq_true, Bool.not_eq_true', bne_iff_ne] at hchars
  refine ⟨?_, ?_⟩
  · rw [String.isEmpty_eq_false_iff]
    rintro rfl
    exact hne rfl
  · simp only [unsafeText, Bool.or_eq_false_iff, decide_eq_false_iff_not, List.any_eq_false, Bool.or_eq_true, not_or,
      Bool.not_eq_true, decide_eq_true_eq]
    exact ⟨⟨by omega, fun c hc => (hchars c hc).1⟩, habsent⟩

/-- No banned claim is in clean text that keeps the pairs apart. -/
theorem fair_of_chain (hpieces : Pieces n text) (hn : n ≤ 9) (hne : lowered text ≠ []) (hchain : (lowered text).IsChain Apart) :
    Fair text := by
  refine fair_of_absent hpieces hn hne ?_
  intro claim hclaim
  by_cases hpercent : claim = "%"
  · subst hpercent
    intro hin
    obtain ⟨c, hc, he⟩ := List.mem_map.mp (hin.subset (List.mem_singleton_self '%'))
    have hclean := List.all_eq_true.mp hpieces.2 c hc
    simp [clean, he] at hclean
  · refine Texts.absent hchain ?_
    simp only [bannedClaims, List.mem_cons, List.not_mem_nil, or_false] at hclaim
    rcases hclaim with rfl | rfl | rfl | rfl | rfl | rfl
    · decide
    · decide
    · decide
    · exact absurd rfl hpercent
    · decide
    · decide

theorem Fair.ofList (hpieces : printable 9 chars = true) (hne : chars ≠ [])
    (habsent : ∀ claim ∈ bannedClaims, ¬claim.toList <:+: chars.map Char.toLower) : Fair (String.ofList chars) := by
  refine fair_of_absent (.ofList hpieces) (by decide) ?_ ?_
  · rw [lowered, String.toList_ofList]
    simpa using hne
  · rw [lowered, String.toList_ofList]
    exact habsent

/-- A text written as two literals. -/
theorem Fair.halves {more : List Char} (hpieces : printable 9 (chars ++ more) = true) (hne : chars ++ more ≠ [])
    (habsent : ∀ claim ∈ bannedClaims, ¬claim.toList <:+: (chars ++ more).map Char.toLower) :
    Fair (String.ofList chars ++ String.ofList more) := by
  rw [← String.ofList_append]
  exact .ofList hpieces hne habsent

/-- A label that is not empty. -/
theorem Fair.title (h : (printable 1 chars && Texts.chained Apart (chars.map Char.toLower) && !chars.isEmpty) = true) :
    Fair (String.ofList chars) := by
  rw [Bool.and_eq_true] at h
  have hlabel := Label.ofList h.1
  refine fair_of_chain hlabel.1 (by decide) ?_ hlabel.2
  rw [lowered, String.toList_ofList]
  simpa using h.2

theorem Opening.fair (h : Opening n text) (hn : n ≤ 9) : Fair text := fair_of_chain h.1 hn h.2.nonempty h.2.chain

theorem Opening.label (h : Opening n text) (hpiece : Label piece) (hn : n + 1 ≤ 9) : Fair (text ++ piece) := by
  refine fair_of_chain (h.1.append hpiece.1) hn ?_ ?_
  · rw [lowered_append]
    simp [h.2.nonempty]
  · rw [lowered_append]
    exact h.2.label apart_of_gap hpiece.2

end texts

section labels
variable {d : Decision} {action : ActionKind} {price stack : String} {band : PreflopBand} {pos : TablePosition}

theorem label_price (d : Decision) : Label (priceDescription d) := by
  unfold priceDescription
  split
  · exact .ofList (by decide)
  split
  · exact .ofList (by decide)
  · exact .ofList (by decide)

theorem label_stack (d : Decision) : Label (stackDescription d) := by
  unfold stackDescription
  dsimp only
  split
  · exact .ofList (by decide)
  · exact .ofList (by decide)

theorem label_made (rank : HandRank) : Label (madeLabel rank) := by
  cases rank <;> exact .ofList (by decide)

theorem label_draw (flush openEnded gutshot : Bool) : Label (drawLabel flush openEnded gutshot) := by
  cases flush <;> cases openEnded <;> cases gutshot <;> exact .ofList (by decide)

theorem label_texture (board : List Card) : Label (boardTexture board) := by
  unfold boardTexture
  dsimp only
  repeat' split
  all_goals exact .ofList (by decide)

theorem label_position (pos : TablePosition) : Label pos.text := by
  cases pos <;> exact .ofList (by decide)

theorem label_action (action : ActionKind) : Label action.text := by
  cases action <;> exact .ofList (by decide)

/-- What the check asks of a review but for its alternative being legal. -/
structure Advice.Sound (advice : Advice) : Prop where
  assessment : advice.assessment ∈ ["uncertain", "reasonable", "reconsider"]
  concept : Fair advice.concept
  explanation : Fair advice.explanation
  alternative : ∀ text ∈ advice.alternative, text ∈ ["fold", "check_call", "raise"]

theorem Advice.Sound.of {assessment concept explanation : String} {alternative : Option String}
    (hassessment : assessment ∈ ["uncertain", "reasonable", "reconsider"]) (hconcept : Fair concept)
    (hexplanation : Fair explanation)
    (halternative : ∀ text ∈ alternative, text ∈ ["fold", "check_call", "raise"]) :
    Advice.Sound ⟨assessment, concept, explanation, alternative⟩ :=
  ⟨hassessment, hconcept, hexplanation, halternative⟩

/-- A text with nothing to fill in. -/
theorem whole (h : Opening 2 text) : Fair text := h.fair (by decide)

set_option maxRecDepth 4000 in
theorem facingRaise_sound (hprice : Label price) (hstack : Label stack) : (facingRaise band action price stack).Sound := by
  have hconcept : Fair "Preflop facing a raise" := .title (by decide)
  unfold facingRaise
  dsimp only
  split
  -- a depth has one of the pairs
  · exact .of (by decide) hconcept (.halves (by decide) (List.cons_ne_nil _ _) (by decide)) (by decide)
  split
  · exact .of (by decide) hconcept (.halves (by decide) (List.cons_ne_nil _ _) (by decide)) (by decide)
  split
  · exact .of (by decide) hconcept (whole (.ofList (by decide))) (by decide)
  · refine .of (by decide) hconcept ?_ (by decide)
    refine ((Opening.slot (n := 1) ?_ hprice ?_).slot hstack ?_).fair (by decide) <;>
      exact .ofList (by decide)

theorem afterLimpers_sound (hprice : Label price) (hstack : Label stack) : (afterLimpers band action price stack).Sound := by
  have hconcept : Fair "Preflop after limpers" := .title (by decide)
  unfold afterLimpers
  dsimp only
  split
  · refine .of (by decide) hconcept ?_ (by decide)
    refine (Opening.slot (n := 1) ?_ hstack ?_).fair (by decide) <;>
      exact .ofList (by decide)
  split
  · refine .of (by decide) hconcept ?_ (by decide)
    refine (Opening.slot (n := 1) ?_ hprice ?_).fair (by decide) <;>
      exact .ofList (by decide)
  · refine .of (by decide) hconcept ?_ (by decide)
    refine ((Opening.slot (n := 1) ?_ hprice ?_).slot hstack ?_).fair (by decide) <;>
      exact .ofList (by decide)

theorem unopened_sound (canRaise : Bool) : (unopened band pos action canRaise).Sound := by
  have hconcept : Fair "Preflop position-aware opening" := .title (by decide)
  have hposition := label_position pos
  have haction := label_action action
  unfold unopened
  dsimp only
  split
  · refine .of (by decide) hconcept ?_ (by decide)
    refine (Opening.slot (n := 1) ?_ hposition ?_).fair (by decide) <;>
      exact .ofList (by decide)
  split
  · refine .of (by decide) hconcept ?_ (by decide)
    refine (Opening.slot (n := 1) ?_ hposition ?_).fair (by decide) <;>
      exact .ofList (by decide)
  split
  · refine .of (by decide) hconcept ?_ (by decide)
    refine (Opening.slot (n := 1) ?_ hposition ?_).fair (by decide) <;>
      exact .ofList (by decide)
  · refine .of (by decide) hconcept ?_ ?_
    · refine ((Opening.slot (n := 1) ?_ hposition ?_).slot haction ?_).fair (by decide) <;>
      exact .ofList (by decide)
    · cases canRaise <;> decide

theorem preflopAdvice_sound (d : Decision) : (preflopAdvice d).Sound := by
  unfold preflopAdvice
  dsimp only
  split
  · exact facingRaise_sound (label_price d) (label_stack d)
  split
  · exact afterLimpers_sound (label_price d) (label_stack d)
  · exact unopened_sound _

section postflop
variable {made draw texture place : String} {strong weak costs : Bool}

theorem bettingAdvice_sound (hmade : Label made) (hdraw : Label draw) (htexture : Label texture) (hplace : Label place)
    (hprice : Label price) : (bettingAdvice made draw texture place price strong weak).Sound := by
  have hvalue : Fair "Postflop: value betting" :=
    .title (by decide)
  have hpurpose : Fair "Postflop: betting purpose" :=
    .title (by decide)
  unfold bettingAdvice
  split
  · refine .of (by decide) hvalue ?_ (by decide)
    refine (((Opening.slot (n := 1) ?_ hmade ?_).slot htexture ?_).slot hplace ?_).fair (by decide) <;>
      exact .ofList (by decide)
  split
  · refine .of (by decide) hpurpose ?_ (by decide)
    refine ((Opening.slot (n := 1) ?_ hmade ?_).slot hdraw ?_).label htexture (by decide) <;>
      exact .ofList (by decide)
  · refine .of (by decide) hpurpose ?_ (by decide)
    refine ((((Opening.slot (n := 1) ?_ hmade ?_).slot hdraw ?_).slot hprice ?_).slot htexture ?_).fair (by decide) <;>
      exact .ofList (by decide)

theorem callingAdvice_sound {altFold altRaise : Option String} (hmade : Label made) (hdraw : Label draw)
    (htexture : Label texture)
    (hprice : Label price) (hfold : ∀ text ∈ altFold, text = "fold") (hraise : ∀ text ∈ altRaise, text = "raise") :
    (callingAdvice made draw texture price strong weak costs altFold altRaise).Sound := by
  have hconcept : Fair "Postflop calling price" :=
    .title (by decide)
  unfold callingAdvice
  split
  · refine .of (by decide) hconcept ?_ fun text h => ?_
    · refine ((Opening.slot (n := 1) ?_ hmade ?_).slot hprice ?_).fair (by decide) <;>
        exact .ofList (by decide)
    · simp [hraise text h]
  split
  · refine .of (by decide) hconcept ?_ fun text h => ?_
    · refine ((((Opening.slot (n := 1) ?_ hmade ?_).slot hdraw ?_).slot hprice ?_).slot htexture ?_).fair (by decide) <;>
        exact .ofList (by decide)
    · simp [hfold text h]
  · refine .of (by decide) hconcept ?_ fun text h => ?_
    · refine ((((Opening.slot (n := 1) ?_ hprice ?_).slot hmade ?_).slot hdraw ?_).slot htexture ?_).fair (by decide) <;>
        exact .ofList (by decide)
    · rcases Option.or_eq_some_iff.mp h with h | ⟨_, h⟩
      · simp [hfold text h]
      · simp [hraise text h]

theorem checkingAdvice_sound {altRaise : Option String} (hmade : Label made) (hdraw : Label draw) (htexture : Label texture)
    (hplace : Label place) (hraise : ∀ text ∈ altRaise, text = "raise") :
    (checkingAdvice made draw texture place strong altRaise).Sound := by
  have hvalue : Fair "Postflop: value betting" :=
    .title (by decide)
  have hfree : Fair "Postflop: free continuation" :=
    .title (by decide)
  unfold checkingAdvice
  split
  · refine .of (by decide) hvalue ?_ fun text h => by simp [hraise text h]
    refine ((Opening.slot (n := 1) ?_ hmade ?_).slot hplace ?_).label htexture (by decide) <;>
      exact .ofList (by decide)
  · refine .of (by decide) hfree ?_ fun text h => by simp [hraise text h]
    refine (((Opening.slot (n := 1) ?_ hmade ?_).slot hdraw ?_).slot htexture ?_).fair (by decide) <;>
      exact .ofList (by decide)

theorem foldingAdvice_sound (hmade : Label made) (hdraw : Label draw) (htexture : Label texture) (hprice : Label price) :
    (foldingAdvice made draw texture price strong weak costs).Sound := by
  have hconcept : Fair "Postflop: folding" :=
    .title (by decide)
  unfold foldingAdvice
  split
  · refine .of (by decide) hconcept ?_ (by decide)
    refine ((Opening.slot (n := 1) ?_ hmade ?_).slot htexture ?_).fair (by decide) <;>
      exact .ofList (by decide)
  split
  · refine .of (by decide) hconcept ?_ (by decide)
    refine ((((Opening.slot (n := 1) ?_ hmade ?_).slot hdraw ?_).slot hprice ?_).slot htexture ?_).fair (by decide) <;>
      exact .ofList (by decide)
  · refine .of (by decide) hconcept ?_ (by decide)
    refine (((Opening.slot (n := 1) ?_ hmade ?_).slot hdraw ?_).slot htexture ?_).fair (by decide) <;>
      exact .ofList (by decide)

end postflop

theorem altFold_eq {o : Observation} {text : String} (h : text ∈ altFold o) : text = "fold" ∧ o.legal.canFold = true := by
  unfold altFold at h
  split at h
  · rename_i hcan
    exact ⟨(Option.some.inj h).symm, hcan⟩
  · cases h

theorem altRaise_eq {o : Observation} {text : String} (h : text ∈ altRaise o) :
    text = "raise" ∧ (o.legal.minRaiseTo.isSome || o.legal.minBetTo.isSome) = true := by
  unfold altRaise at h
  split at h
  · rename_i hcan
    exact ⟨(Option.some.inj h).symm, hcan⟩
  · cases h

theorem postflopAdvice_sound (d : Decision) : (postflopAdvice d).Sound := by
  have hmade := label_made (evaluateHand d.observation.holeCards d.observation.board).rank
  have htexture := label_texture d.observation.board
  have hprice := label_price d
  have hplace : Label (if d.observation.tablePosition = .late then "later position" else "with players still to act") := by
    split
    · exact .ofList (by decide)
    · exact .ofList (by decide)
  unfold postflopAdvice
  dsimp only
  split
  · exact bettingAdvice_sound hmade (label_draw _ _ _) htexture hplace hprice
  · exact bettingAdvice_sound hmade (label_draw _ _ _) htexture hplace hprice
  · exact callingAdvice_sound hmade (label_draw _ _ _) htexture hprice (fun _ h => (altFold_eq h).1) fun _ h => (altRaise_eq h).1
  · exact checkingAdvice_sound hmade (label_draw _ _ _) htexture hplace fun _ h => (altRaise_eq h).1
  · exact foldingAdvice_sound hmade (label_draw _ _ _) htexture hprice

end labels

/-! ## Legality -/

section contract
variable {d : Decision} {advice : Advice} {assumptions : List String} {action : ActionKind} {o : Observation}

set_option maxRecDepth 4000 in
theorem assumptions_fair : ∀ text ∈ preflopAssumptions ++ postflopAssumptions, unsafeText text = false := by
  have hbands : Fair "Agent-reviewed deterministic starting-hand bands; not a numerical strength calculation." :=
    .ofList (by decide) (List.cons_ne_nil _ _) (by decide)
  have hreads : Fair "Opponent ranges and table-specific reads are unknown." :=
    .title (by decide)
  have hcards : Fair "Made-hand category and draw labels use only your cards and the current board." :=
    .title (by decide)
  have hranges : Fair "No opponent range, future card, or numeric chance of winning is evaluated." :=
    .title (by decide)
  simp only [preflopAssumptions, postflopAssumptions, List.cons_append, List.nil_append, List.forall_mem_cons]
  exact ⟨hbands.2, hreads.2, hcards.2, hranges.2, fun _ h => absurd h List.not_mem_nil⟩

theorem alternative_fair {text : String} (h : text ∈ ["fold", "check_call", "raise"]) : unsafeText text = false := by
  have hfold : Fair "fold" := .title (by decide)
  have hcheckCall : Fair "check_call" := .title (by decide)
  have hraise : Fair "raise" := .title (by decide)
  simp only [List.mem_cons, List.not_mem_nil, or_false] at h
  rcases h with rfl | rfl | rfl
  · exact hfold.2
  · exact hcheckCall.2
  · exact hraise.2

/-- An alternative that is on the menu and no action of the kind taken. -/
def Offers (d : Decision) (text : String) : Prop :=
  let legal := d.observation.legal
  (text = "fold" → legal.canFold = true) ∧ (text = "raise" → (legal.minRaiseTo.isSome || legal.minBetTo.isSome) = true) ∧
    d.observation.suggested text ≠ some (actionKind d.acceptedAction)

theorem offers_fold : Offers d "fold" ↔ d.observation.legal.canFold = true ∧ actionKind d.acceptedAction ≠ .fold := by
  simp [Offers, Observation.suggested, ne_comm]

theorem offers_checkCall : Offers d "check_call" ↔ actionKind d.observation.checkCall ≠ actionKind d.acceptedAction := by
  simp [Offers, Observation.suggested]

theorem offers_raise : Offers d "raise" ↔
    (d.observation.legal.minRaiseTo.isSome || d.observation.legal.minBetTo.isSome) = true ∧
      actionKind d.acceptedAction ≠ .raise := by
  simp [Offers, Observation.suggested, ne_comm]

/-- A check, a call or an all-in is neither a raise nor a fold. -/
theorem actionKind_checkCall (o : Observation) : actionKind o.checkCall ≠ .raise ∧ actionKind o.checkCall ≠ .fold := by
  unfold Observation.checkCall
  split
  · simp [actionKind]
  · split
    · simp [actionKind]
    · simp [actionKind]

/-- Sound advice passes the check where its alternative is legal. -/
theorem Advice.Sound.reviewed_iff (h : advice.Sound) (hassumptions : ∀ text ∈ assumptions, unsafeText text = false)
    (hfew : assumptions.length ≤ 8) :
    Reviewed (advice.feedback assumptions d.observation) d ↔ ∀ text ∈ advice.alternative, Offers d text := by
  have hsafe : ((advice.explanation :: advice.concept :: (assumptions ++ advice.alternative.toList)).any unsafeText) = false := by
    simp only [List.any_cons, List.any_append, h.explanation.2, h.concept.2, Bool.false_or, Bool.or_eq_false_iff,
      List.any_eq_false,
      Option.mem_toList]
    exact ⟨fun text hin => by simp [hassumptions text hin], fun text hin => by simp [alternative_fair (h.alternative text hin)]⟩
  have hchecked : validateFeedback (advice.feedback assumptions d.observation) d =
      match advice.alternative with
      | none => .ok ()
      | some text =>
        if (if text = "fold" then d.observation.legal.canFold
          else if text = "check_call" then true
          else if text = "raise" then d.observation.legal.minRaiseTo.isSome || d.observation.legal.minBetTo.isSome
          else false) = true then .ok () else .error "Coaching unavailable: invalid alternative" := by
    unfold validateFeedback
    simp only [Advice.feedback, hsafe, h.explanation.1, h.concept.1]
    have hassessed : ¬(advice.assessment ∉ ["uncertain", "reasonable", "reconsider"] ∨ "heuristic" ≠ "heuristic" ∨
        8 < assumptions.length ∨ false = true ∨ false = true) := by
      rintro (hother | hother | hother | hother | hother)
      · exact hother h.assessment
      · exact hother rfl
      · omega
      · cases hother
      · cases hother
    rw [if_neg (by simp), if_neg hassessed, if_neg (by simp)]
  unfold Reviewed
  rw [hchecked]
  cases halternative : advice.alternative with
  | none => simp [Advice.feedback, halternative]
  | some text =>
    have hknown := h.alternative text halternative
    simp only [List.mem_cons, List.not_mem_nil, or_false] at hknown
    simp only [Advice.feedback, halternative, Option.mem_def, Option.some.injEq, forall_eq', Offers]
    rcases hknown with rfl | rfl | rfl
    · cases d.observation.legal.canFold <;> simp
    · simp
    · cases d.observation.legal.minRaiseTo.isSome <;> cases d.observation.legal.minBetTo.isSome <;> simp

/-- After the flop only a suggested call may be what the player did. -/
theorem postflopAdvice_offers (d : Decision) : (∀ text ∈ (postflopAdvice d).alternative, Offers d text) ↔
    (actionKind d.acceptedAction = .allIn → actionKind d.observation.checkCall ≠ .allIn) := by
  have hfold : actionKind d.acceptedAction ≠ .fold → ∀ text ∈ altFold d.observation, Offers d text := by
    intro hkind text h
    obtain ⟨rfl, hcan⟩ := altFold_eq h
    exact offers_fold.mpr ⟨hcan, hkind⟩
  have hraise : actionKind d.acceptedAction ≠ .raise → ∀ text ∈ altRaise d.observation, Offers d text := by
    intro hkind text h
    obtain ⟨rfl, hcan⟩ := altRaise_eq h
    exact offers_raise.mpr ⟨hcan, hkind⟩
  have hcall : (∀ text ∈ some "check_call", Offers d text) ↔
      actionKind d.observation.checkCall ≠ actionKind d.acceptedAction := by
    simp [offers_checkCall]
  obtain ⟨hnoRaise, hnoFold⟩ := actionKind_checkCall d.observation
  unfold postflopAdvice
  dsimp only
  -- what is left to show where the player was not all-in
  have hother : ∀ {advised : Prop}, actionKind d.acceptedAction ≠ .allIn → advised →
      (advised ↔ (actionKind d.acceptedAction = .allIn → actionKind d.observation.checkCall ≠ .allIn)) :=
    fun hkind h => ⟨fun _ hallIn => absurd hallIn hkind, fun _ => h⟩
  split
  · rename_i hkind
    refine hother (by simp [hkind]) ?_
    have hdiffers := hcall.mpr (by rw [hkind]; exact hnoRaise)
    unfold bettingAdvice
    split
    · exact hdiffers
    split
    · exact hdiffers
    · exact hdiffers
  · rename_i hkind
    rw [hkind] at hcall
    have hdiffers := hcall.trans ⟨fun h _ => h, fun h => h hkind⟩
    unfold bettingAdvice
    split
    · exact hdiffers
    split
    · exact hdiffers
    · exact hdiffers
  · rename_i hkind
    refine hother (by simp [hkind]) ?_
    unfold callingAdvice
    split
    · exact hraise (by simp [hkind])
    split
    · exact hfold (by simp [hkind])
    · intro text h
      rcases Option.or_eq_some_iff.mp h with h | ⟨_, h⟩
      · exact hfold (by simp [hkind]) text h
      · exact hraise (by simp [hkind]) text h
  · rename_i hkind
    refine hother (by simp [hkind]) ?_
    unfold checkingAdvice
    split
    · exact hraise (by simp [hkind])
    · exact hraise (by simp [hkind])
  · rename_i hkind
    refine hother (by simp [hkind]) ?_
    have hdiffers := hcall.mpr (by rw [hkind]; exact hnoFold)
    unfold foldingAdvice
    split
    · exact hdiffers
    split
    · exact hdiffers
    · exact hdiffers

/-- Before the flop a suggested fold may be off the menu or what the player did, and a suggested call be the all-in. -/
theorem preflopAdvice_offers (d : Decision) : (∀ text ∈ (preflopAdvice d).alternative, Offers d text) ↔
    (d.FoldAdvised → d.observation.legal.canFold = true ∧ actionKind d.acceptedAction ≠ .fold) ∧
      (actionKind d.acceptedAction = .allIn → actionKind d.observation.checkCall = .allIn →
        ¬(d.observation.raised = true ∧ preflopBand d.observation = .premium)) := by
  have hfold : (∀ text ∈ some "fold", Offers d text) ↔
      d.observation.legal.canFold = true ∧ actionKind d.acceptedAction ≠ .fold := by
    simp [offers_fold]
  have hnone : ∀ text ∈ (none : Option String), Offers d text := fun _ h => absurd h (Option.not_mem_none _)
  have hcall : (∀ text ∈ some "check_call", Offers d text) ↔
      actionKind d.observation.checkCall ≠ actionKind d.acceptedAction := by
    simp [offers_checkCall]
  have hnoRaise := (actionKind_checkCall d.observation).1
  unfold preflopAdvice Decision.FoldAdvised
  dsimp only
  generalize preflopBand d.observation = band
  split
  · rename_i hraised
    unfold facingRaise
    dsimp only
    split
    · rename_i hvalue
      rcases hvalue.2 with hkind | hkind
      · refine ⟨fun _ => ⟨fun hadvised => absurd hvalue hadvised.1, fun hallIn => ?_⟩,
          fun _ => hcall.mpr (by rw [hkind]; exact hnoRaise)⟩
        rw [hkind] at hallIn
        cases hallIn
      · rw [hkind] at hcall
        refine hcall.trans
          ⟨fun hother => ⟨fun hadvised => absurd hvalue (hkind ▸ hadvised.1), fun _ hsame => absurd hsame hother⟩, ?_⟩
        exact fun h hsame => h.2 hkind hsame ⟨hraised, hvalue.1⟩
    · rename_i hvalue
      -- a player who was all-in here does not have the strongest hands
      have hweaker : actionKind d.acceptedAction = .allIn → actionKind d.observation.checkCall = .allIn →
          ¬(d.observation.raised = true ∧ band = .premium) := fun hallIn _ h => hvalue ⟨h.2, Or.inr hallIn⟩
      refine Iff.trans ?_ (and_iff_left hweaker).symm
      split
      · rename_i hfolds
        exact ⟨fun _ hadvised => absurd hfolds hadvised.2, fun _ => hnone⟩
      split
      · rename_i hfolds _
        exact hfold.trans ⟨fun h _ => h, fun h => h ⟨hvalue, hfolds⟩⟩
      · rename_i hfolds _
        exact hfold.trans ⟨fun h _ => h, fun h => h ⟨hvalue, hfolds⟩⟩
  · rename_i hraised
    have hunraised : actionKind d.acceptedAction = .allIn → actionKind d.observation.checkCall = .allIn →
        ¬(d.observation.raised = true ∧ band = .premium) := fun _ _ h => hraised h.1
    refine Iff.trans ?_ (and_iff_left hunraised).symm
    split
    · unfold afterLimpers
      dsimp only
      split
      · rename_i hvalue
        exact ⟨fun _ hadvised => absurd hvalue hadvised, fun _ => hcall.mpr (by rw [hvalue.2]; exact hnoRaise)⟩
      split
      · rename_i hvalue _
        exact hfold.trans ⟨fun h _ => h, fun h => h hvalue⟩
      · rename_i hvalue _
        exact hfold.trans ⟨fun h _ => h, fun h => h hvalue⟩
    · unfold unopened
      dsimp only
      split
      · rename_i hopens
        exact ⟨fun _ hadvised => absurd hopens.1 hadvised.1, fun _ => hnone⟩
      split
      · rename_i hfolds
        refine ⟨fun _ hadvised => ?_, fun _ => hnone⟩
        simp [hfolds.2] at hadvised
      split
      · rename_i hadvised
        exact hfold.trans ⟨fun h _ => h, fun h => h hadvised⟩
      · rename_i hopens _ hadvised
        refine ⟨fun _ h => absurd h hadvised, fun _ text h => ?_⟩
        split at h
        · rename_i hraise
          obtain rfl := Option.some.inj h
          refine offers_raise.mpr ⟨by simp [hraise], fun hkind => ?_⟩
          by_cases hband : d.observation.tablePosition.required.level ≤ band.level
          · exact hopens ⟨hband, hkind⟩
          · exact hadvised ⟨hband, Or.inr (Or.inl hkind)⟩
        · cases h

/-- Whatever the decision, its local review is sound exactly where its alternative fits. -/
theorem feedback_reviewed (d : Decision) : Reviewed (feedback d) d ↔ d.AlternativeFits := by
  have hassumptions := List.forall_mem_append.mp assumptions_fair
  unfold feedback
  split
  · rename_i hphase
    rw [(postflopAdvice_sound d).reviewed_iff hassumptions.2 (by decide), postflopAdvice_offers]
    refine ⟨fun h => ⟨fun hpre => absurd hpre hphase, fun hallIn hcall => absurd hcall (h hallIn)⟩, fun h hallIn hcall => ?_⟩
    exact h.call hallIn hcall fun hpre => absurd hpre hphase
  · rename_i hphase
    have hpre := not_not.mp hphase
    rw [(preflopAdvice_sound d).reviewed_iff hassumptions.1 (by decide), preflopAdvice_offers]
    refine ⟨fun h => ⟨fun _ => h.1, fun hallIn hcall hadvised => h.2 hallIn hcall (hadvised hpre)⟩, fun h => ⟨h.fold hpre, ?_⟩⟩
    exact fun hallIn hcall hvalue => h.call hallIn hcall fun _ => hvalue

end contract

/-! ## The decisions of a session -/

/-- What the review expects of an observation: two cards, and a seat dealt in. -/
structure Observation.Readable (o : Observation) : Prop where
  cards : o.holeCards.length = 2
  dealt : ∃ seat ∈ o.seats, seat.participation ≠ .notDealt

/-- A decision that a session accepts is read without a panic. -/
theorem submit_readable {s : Session} {action : Action} {d : Decision} (h : (s.submit feedback action).1 = .ok d) :
    d.observation.Readable := by
  rcases submit_cases feedback s action with ⟨error, he⟩ | ⟨o, -, ho, hv, he⟩
  · rw [he] at h
    cases h
  · rw [he] at h
    obtain rfl := Except.ok.inj h
    obtain ⟨hturn, -⟩ := MultiwayHand.validateCommand_ok hv
    have hsees := MultiwayHand.observation_sees ho hturn.accepts
    have hact := hturn.canAct
    simp only [MultiwaySeatState.canAct, Bool.and_eq_true, beq_iff_eq] at hact
    refine ⟨hsees.two, s.hand.publicSeat hero, ?_, ?_⟩
    · rw [hsees.seats]
      exact List.mem_map_of_mem hsees.mem
    · show (s.hand.seat hero).participation ≠ .notDealt
      rw [hact.2]
      decide

/-- Whatever the session, the local review of a decision it accepts keeps its contract exactly where its alternative fits. -/
theorem local_review_keeps_contract (s : Session) (action : Action) {d : Decision} (h : (s.submit feedback action).1 = .ok d) :
    d.observation.Readable ∧ (Reviewed (feedback d) d ↔ d.AlternativeFits) :=
  ⟨submit_readable h, feedback_reviewed d⟩

/-- What decides whether an early hand's alternative fits. -/
def Decision.spot (d : Decision) : MultiwayPhase × Bool × Bool × Bool × ActionKind :=
  (d.observation.phase, d.observation.raised, hasPriorLimp d.observation, d.observation.legal.canFold,
    actionKind d.acceptedAction)

/-- A first hand folded. -/
theorem local_review_keeps_contract_folded : ∃ s d, Session.new headsUp newDeck "s" = .ok s ∧
    (s.submit feedback .fold).1 = .ok d ∧ Reviewed (feedback d) d := by
  have hrun : (Session.new headsUp newDeck "s").toOption.map (fun s => (s.submit feedback .fold).1.toOption.map Decision.spot) =
      some (some (.preflop, false, false, true, .fold)) := by decide +kernel
  obtain ⟨s, hnew⟩ := headsUp_opens
  rw [hnew] at hrun
  cases hsubmit : (s.submit feedback .fold).1 with
  | error e => simp [Except.toOption, hsubmit] at hrun
  | ok d =>
    simp only [Except.toOption, hsubmit, Option.map_some, Option.some.injEq, Decision.spot, Prod.mk.injEq] at hrun
    refine ⟨s, d, hnew, hsubmit, (local_review_keeps_contract s .fold hsubmit).2.mpr ⟨fun _ hadvised => ?_, fun hallIn => ?_⟩⟩
    · simp [Decision.FoldAdvised, hrun] at hadvised
    · simp [hrun] at hallIn

/-- The opponent limps in the second hand, and the hero has a free check. -/
def limpedAgainst : List SessionOp := [.submit .fold, .continueHand, .nextHand newDeck, .stepBot ⟨true, false, false⟩]

/-- The review of the check suggests a fold, which is not on the menu. -/
theorem free_check_told_to_fold : ∃ s d, Session.new headsUp newDeck "s" = .ok s ∧
    ((s.run feedback limpedAgainst).submit feedback .check).1 = .ok d ∧ ¬Reviewed (feedback d) d := by
  have hrun : (Session.new headsUp newDeck "s").toOption.map (fun s =>
      ((s.run feedback limpedAgainst).submit feedback .check).1.toOption.map Decision.spot) =
      some (some (.preflop, false, true, false, .check)) := by decide +kernel
  obtain ⟨s, hnew⟩ := headsUp_opens
  rw [hnew] at hrun
  cases hsubmit : ((s.run feedback limpedAgainst).submit feedback .check).1 with
  | error e => simp [Except.toOption, hsubmit] at hrun
  | ok d =>
    simp only [Except.toOption, hsubmit, Option.map_some, Option.some.injEq, Decision.spot, Prod.mk.injEq] at hrun
    refine ⟨s, d, hnew, hsubmit, fun hreviewed => ?_⟩
    have hfits := ((feedback_reviewed d).mp hreviewed).fold hrun.1
    simp [Decision.FoldAdvised, hrun] at hfits

end OpenFelt.Trainer
