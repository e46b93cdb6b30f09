/-
  OpenFelt.Trainer.SolverLine — the river line the solver's tree is given.

  `TreeNode.step` is what an action does at a node of a two-player river tree: bets and
  raises name what the player has in, an all-in is the effective stack. Proved: what
  `replayRiver` builds is a line of that tree with the replayed contributions
  (`replayRiver_line`), it refuses for the history alone (`replayRiver_refused`), and a
  duel within the effective stack is replayed to its own bets (`Duel.replayed`).
-/

import OpenFelt.Trainer.LiveSolver

namespace OpenFelt.Trainer

/-! ## The tree -/

/-- A place in the river tree: what each player has in, the wager to match and who is to act. -/
structure TreeNode where
  contributions : Fin 2 → Int
  wager : Int
  player : Fin 2

namespace TreeNode

def root : TreeNode := ⟨fun _ => 0, 0, 0⟩

/-- The player to act puts in up to `amount`, and the other is next. -/
def paid (n : TreeNode) (amount wager : Int) : TreeNode :=
  ⟨Function.update n.contributions n.player amount, wager, n.player + 1⟩

def step (effectiveStack : Int) (n : TreeNode) : SolverAction → Option TreeNode
  | .fold => none
  | .check => if n.contributions n.player = n.wager then some (n.paid n.wager n.wager) else none
  | .call => if n.contributions n.player < n.wager then some (n.paid n.wager n.wager) else none
  | .bet v => if n.wager = 0 ∧ 0 < v ∧ v < effectiveStack then some (n.paid v v) else none
  | .raise v =>
    if 0 < n.wager ∧ n.contributions n.player < n.wager ∧ n.wager < v ∧ v < effectiveStack then some (n.paid v v) else none
  | .allIn v => if v = effectiveStack ∧ n.contributions n.player ≤ n.wager ∧ n.wager < v then some (n.paid v v) else none

/-- Where a line of actions leads; nothing where one of them is not an action of the tree. -/
def line (effectiveStack : Int) (history : List SolverAction) : Option TreeNode := history.foldlM (step effectiveStack) root

theorem line_append (effectiveStack : Int) (history : List SolverAction) (action : SolverAction) :
    line effectiveStack (history ++ [action]) = (line effectiveStack history).bind fun n => n.step effectiveStack action := by
  rw [line, List.foldlM_append]
  cases hline : history.foldlM (step effectiveStack) root with
  | none =>
    rw [line, hline]
    rfl
  | some n =>
    rw [line, hline]
    simp

end TreeNode

/-! ## Amounts -/

/-- What is at most the largest effective stack survives the conversion. -/
theorem asI32_eq {n : Nat} (h : n ≤ 1000000) : asI32 n = n := by
  have hlt : 2 * (BitVec.ofNat 32 n).toNat < 2 ^ 32 := by
    rw [BitVec.toNat_ofNat]
    omega
  rw [asI32, BitVec.toInt_eq_toNat_of_lt hlt, BitVec.toNat_ofNat, Nat.mod_eq_of_lt (by omega)]

/-- The node a replay has come to. -/
def Replay.node (r : Replay) (player : Fin 2) : TreeNode := ⟨fun k => r.contributions k, r.wager, player⟩

section line
variable {eff v before : Nat} {players : Fin 2 → SeatId} {river : List PublicAction} {record : PublicAction} {r r' : Replay}
  {actor : Fin 2} {action : SolverAction} {error : ContextError}

theorem cast_update (contributions : Fin 2 → Nat) (actor : Fin 2) (v : Nat) :
    (fun k => ((Function.update contributions actor v k : Nat) : Int)) =
      Function.update (fun k => (contributions k : Int)) actor v := by
  funext k
  by_cases hk : k = actor
  · rw [hk, Function.update_self, Function.update_self]
  · rw [Function.update_of_ne hk, Function.update_of_ne hk]

theorem Replay.followed_ok {contributions : Fin 2 → Nat} {wager : Nat}
    (h : r.followed record contributions wager action = .ok r') :
    r' = ⟨contributions, wager, r.history ++ [action]⟩ := by
  unfold followed at h
  split at h
  · cases h
  · exact (Except.ok.inj h).symm

theorem Replay.raised_ok (h : r.raised eff record actor v = .ok r') : ∃ mapped, mapAction record.action r.wager eff = .ok mapped ∧
    r' = ⟨Function.update r.contributions actor v, v, r.history ++ [mapped]⟩ := by
  unfold raised at h
  cases hmap : mapAction record.action r.wager eff with
  | error e =>
    rw [hmap] at h
    cases h
  | ok mapped =>
    rw [hmap] at h
    exact ⟨mapped, rfl, followed_ok h⟩

theorem Replay.paid_node (r : Replay) (actor : Fin 2) (v : Nat) (history : List SolverAction) :
    (r.node actor).paid v v = (Replay.mk (Function.update r.contributions actor v) v history).node (actor + 1) := by
  rw [TreeNode.paid, Replay.node, Replay.node]
  dsimp only
  rw [cast_update]

/-! ## One record -/

/-- A bet or a raise that is mapped is the tree's bet, raise or all-in of that amount. -/
theorem mapAction_raises (hmap : mapAction record.action before eff = .ok action)
    (hv : record.action = .bet v ∨ record.action = .raise v) :
    (before = 0 ∧ v < eff ∧ action = .bet (asI32 v)) ∨ (0 < before ∧ v < eff ∧ action = .raise (asI32 v)) ∨
      (v = eff ∧ action = .allIn (asI32 v)) := by
  rcases hv with hv | hv
  · rw [hv] at hmap
    simp only [mapAction] at hmap
    by_cases hall : before = 0 ∧ v = eff
    · rw [if_pos hall] at hmap
      exact Or.inr (Or.inr ⟨hall.2, (Except.ok.inj hmap).symm⟩)
    · rw [if_neg hall] at hmap
      by_cases hbelow : before = 0 ∧ v < eff
      · rw [if_pos hbelow] at hmap
        exact Or.inl ⟨hbelow.1, hbelow.2, (Except.ok.inj hmap).symm⟩
      · rw [if_neg hbelow] at hmap
        cases hmap
  · rw [hv] at hmap
    simp only [mapAction] at hmap
    by_cases hall : 0 < before ∧ v = eff
    · rw [if_pos hall] at hmap
      exact Or.inr (Or.inr ⟨hall.2, (Except.ok.inj hmap).symm⟩)
    · rw [if_neg hall] at hmap
      by_cases hbelow : 0 < before ∧ v < eff
      · rw [if_pos hbelow] at hmap
        exact Or.inr (Or.inl ⟨hbelow.1, hbelow.2, (Except.ok.inj hmap).symm⟩)
      · rw [if_neg hbelow] at hmap
        cases hmap

/-- The tree takes the mapped bet or raise where the replay has it. -/
theorem step_raises (heff : eff ≤ 100000) (hmap : mapAction record.action r.wager eff = .ok action)
    (hv : record.action = .bet v ∨ record.action = .raise v) (hlt : r.wager < v) (hle : v ≤ eff)
    (hown : r.contributions actor ≤ r.wager)
    (hbelow : 0 < r.wager → r.contributions actor < r.wager) :
    (r.node actor).step eff action = some ((r.node actor).paid v v) := by
  have hv' : asI32 v = v := asI32_eq (by omega)
  rcases mapAction_raises hmap hv with ⟨hzero, hless, rfl⟩ | ⟨hpos, hless, rfl⟩ | ⟨rfl, rfl⟩
  · have hok : (r.node actor).wager = 0 ∧ 0 < asI32 v ∧ asI32 v < eff := by
      rw [hv']
      simp only [Replay.node]
      omega
    rw [TreeNode.step, if_pos hok, hv']
  · have hless' := hbelow hpos
    have hok : 0 < (r.node actor).wager ∧ (r.node actor).contributions (r.node actor).player < (r.node actor).wager ∧
        (r.node actor).wager < asI32 v ∧ asI32 v < eff := by
      rw [hv']
      simp only [Replay.node]
      omega
    rw [TreeNode.step, if_pos hok, hv']
  · have hok : asI32 v = v ∧ (r.node actor).contributions (r.node actor).player ≤ (r.node actor).wager ∧
        (r.node actor).wager < asI32 v := by
      rw [hv']
      simp only [Replay.node, true_and]
      omega
    rw [TreeNode.step, if_pos hok, hv']

/-- A record that is replayed is an action of the tree, and does there what the replay did. -/
theorem replayRecord_step (heff : eff ≤ 100000) (h : replayRecord eff record actor r = .ok r') :
    ∃ action, r'.history = r.history ++ [action] ∧ (r.node actor).step eff action = some (r'.node (actor + 1)) := by
  unfold replayRecord at h
  dsimp only at h
  cases haction : record.action with
  | fold =>
    rw [haction] at h
    cases h
  | allIn n =>
    rw [haction] at h
    cases h
  | check =>
    rw [haction] at h
    by_cases hat : r.contributions actor = r.wager
    · simp only [if_pos hat] at h
      obtain rfl := Replay.followed_ok h
      have hat' : (r.node actor).contributions (r.node actor).player = (r.node actor).wager := by
        simp only [Replay.node]
        rw [hat]
      refine ⟨.check, rfl, ?_⟩
      rw [TreeNode.step, if_pos hat']
      refine congrArg some ((r.paid_node actor r.wager []).trans ?_)
      simp only [Replay.node, ← hat, Function.update_eq_self]
    · simp only [if_neg hat] at h
      cases h
  | call cost =>
    rw [haction] at h
    by_cases hcost : r.contributions actor < r.wager ∧ cost = r.wager - r.contributions actor
    · simp only [if_pos hcost] at h
      obtain rfl := Replay.followed_ok h
      have hbelow : (r.node actor).contributions (r.node actor).player < (r.node actor).wager := by
        simp only [Replay.node]
        omega
      refine ⟨.call, rfl, ?_⟩
      rw [TreeNode.step, if_pos hbelow]
      exact congrArg some (r.paid_node actor r.wager _)
    · simp only [if_neg hcost] at h
      cases h
  | bet v =>
    rw [haction] at h
    by_cases hbet : r.wager = 0 ∧ r.contributions actor = 0 ∧ 0 < v ∧ v ≤ eff
    · simp only [if_pos hbet] at h
      obtain ⟨mapped, hmap, rfl⟩ := Replay.raised_ok h
      refine ⟨mapped, rfl, ?_⟩
      rw [step_raises heff hmap (Or.inl haction) (by omega) hbet.2.2.2 (by omega) (by omega)]
      exact congrArg some (r.paid_node actor v _)
    · simp only [if_neg hbet] at h
      cases h
  | raise v =>
    rw [haction] at h
    by_cases hraise : r.contributions actor < r.wager ∧ r.wager < v ∧ v ≤ eff
    · simp only [if_pos hraise] at h
      obtain ⟨mapped, hmap, rfl⟩ := Replay.raised_ok h
      refine ⟨mapped, rfl, ?_⟩
      rw [step_raises heff hmap (Or.inr haction) hraise.2.1 hraise.2.2 (by omega) fun _ => hraise.1]
      exact congrArg some (r.paid_node actor v _)
    · simp only [if_neg hraise] at h
      cases h

/-! ## The whole river -/

theorem replayRiver_append (eff : Nat) (players : Fin 2 → SeatId) (river : List PublicAction) (record : PublicAction) :
    replayRiver eff players (river ++ [record]) =
      (replayRiver eff players river).bind fun r => replayTurn eff players r (record, river.length) := by
  rw [replayRiver, List.zipIdx_append, List.foldlM_append]
  cases hfirst : river.zipIdx.foldlM (replayTurn eff players) ⟨fun _ => 0, 0, []⟩ with
  | error e =>
    rw [replayRiver, hfirst]
    rfl
  | ok r =>
    rw [replayRiver, hfirst]
    rw [Nat.zero_add]
    exact bind_pure (replayTurn eff players r (record, river.length))

/-- What the replay builds is a line of the tree, with what it has replayed. -/
theorem replayRiver_line (heff : eff ≤ 100000) (h : replayRiver eff players river = .ok r) :
    TreeNode.line eff r.history = some (r.node (turnAfter river.length)) := by
  induction river using List.reverseRecOn generalizing r with
  | nil =>
    obtain rfl := Except.ok.inj h
    rfl
  | append_singleton river record ih =>
    rw [replayRiver_append] at h
    cases hfirst : replayRiver eff players river with
    | error e =>
      rw [hfirst] at h
      cases h
    | ok before =>
      rw [hfirst] at h
      have hturn : replayTurn eff players before (record, river.length) = .ok r := h
      unfold replayTurn at hturn
      split at hturn
      · cases hturn
      obtain ⟨action, hhistory, hstep⟩ := replayRecord_step heff hturn
      have hlen : (river ++ [record]).length = river.length + 1 := List.length_append
      rw [hhistory, TreeNode.line_append, ih hfirst, Option.bind_some, hstep, hlen, turnAfter_succ]

/-! ## What is refused -/

/-- The history, the actor or the contributions are refused. -/
def historyErrors : List ContextError :=
  [.message "River history contains an unsupported action or amount",
    .message "River history wager does not match the action",
    .message "River action order does not match heads-up positions",
    .message "River history does not reproduce current contributions",
    .message "Current actor does not match river history"]

/-- The amount of an action is refused. -/
def sizeError : ContextError := .message "Action size cannot be represented exactly in the effective-stack tree"

theorem mapAction_refused {act : Action} (h : mapAction act before eff = .error error) : error = sizeError := by
  unfold mapAction at h
  cases act with
  | fold | check | call n => cases h
  | bet n | raise n =>
    dsimp only at h
    split at h
    · cases h
    split at h
    · cases h
    · exact (Except.error.inj h).symm
  | allIn n =>
    dsimp only at h
    split at h
    · cases h
    · exact (Except.error.inj h).symm

theorem Replay.followed_refused {contributions : Fin 2 → Nat} {wager : Nat}
    (h : r.followed record contributions wager action = .error error) : error ∈ historyErrors := by
  unfold followed at h
  split at h
  · obtain rfl := Except.error.inj h
    decide
  · cases h

theorem Replay.raised_refused (h : r.raised eff record actor v = .error error) : error ∈ sizeError :: historyErrors := by
  unfold raised at h
  cases hmap : mapAction record.action r.wager eff with
  | error e =>
    rw [hmap] at h
    obtain rfl := Except.error.inj h
    rw [mapAction_refused hmap]
    exact List.mem_cons_self
  | ok mapped =>
    rw [hmap] at h
    exact List.mem_cons_of_mem _ (followed_refused h)

theorem replayRecord_refused (h : replayRecord eff record actor r = .error error) : error ∈ sizeError :: historyErrors := by
  have hunsupported : ∀ e : ContextError,
      (.error (.message "River history contains an unsupported action or amount") : Except ContextError Replay) = .error e →
        e ∈ sizeError :: historyErrors := by
    intro e he
    obtain rfl := Except.error.inj he
    decide
  unfold replayRecord at h
  dsimp only at h
  cases haction : record.action with
  | fold | allIn n =>
    rw [haction] at h
    exact hunsupported _ h
  | check | call n =>
    rw [haction] at h
    dsimp only at h
    split at h
    · exact List.mem_cons_of_mem _ (Replay.followed_refused h)
    · exact hunsupported _ h
  | bet v | raise v =>
    rw [haction] at h
    dsimp only at h
    split at h
    · exact Replay.raised_refused h
    · exact hunsupported _ h

theorem replayRiver_refused (h : replayRiver eff players river = .error error) : error ∈ sizeError :: historyErrors := by
  induction river using List.reverseRecOn generalizing error with
  | nil => cases h
  | append_singleton river record ih =>
    rw [replayRiver_append] at h
    cases hfirst : replayRiver eff players river with
    | error e =>
      rw [hfirst] at h
      obtain rfl := Except.error.inj h
      exact ih hfirst
    | ok before =>
      rw [hfirst] at h
      have hturn : replayTurn eff players before (record, river.length) = .error error := h
      unfold replayTurn at hturn
      split at hturn
      · obtain rfl := Except.error.inj hturn
        decide
      · exact replayRecord_refused hturn

/-! ## A duel -/

/-- A record as the public history has it. -/
def PublicAction.ofRecord (record : MultiwayActionRecord) : PublicAction :=
  ⟨record.phase, record.seat, record.action, record.wagerAfter⟩

theorem mapAction_within {act : Action} (h : (act = .bet v ∧ before = 0) ∨ (act = .raise v ∧ 0 < before)) (hle : v ≤ eff) :
    ∃ action, mapAction act before eff = .ok action := by
  rcases Nat.lt_or_eq_of_le hle with hless | hall
  · rcases h with ⟨rfl, hzero⟩ | ⟨rfl, hpos⟩
    · exact ⟨_, by rw [mapAction, if_neg fun hat => absurd hat.2 (Nat.ne_of_lt hless), if_pos ⟨hzero, hless⟩]⟩
    · exact ⟨_, by rw [mapAction, if_neg fun hat => absurd hat.2 (Nat.ne_of_lt hless), if_pos ⟨hpos, hless⟩]⟩
  · rcases h with ⟨rfl, hzero⟩ | ⟨rfl, hpos⟩
    · exact ⟨_, by rw [mapAction, if_pos ⟨hzero, hall⟩]⟩
    · exact ⟨_, by rw [mapAction, if_pos ⟨hpos, hall⟩]⟩

theorem Replay.followed_within {contributions : Fin 2 → Nat} {wager : Nat} (hafter : record.wagerAfter = wager) :
    r.followed record contributions wager action = .ok ⟨contributions, wager, r.history ++ [action]⟩ := by
  rw [followed, if_neg (not_not_intro hafter)]

theorem Replay.raised_within (h : (record.action = .bet v ∧ r.wager = 0) ∨ (record.action = .raise v ∧ 0 < r.wager))
    (hle : v ≤ eff)
    (hafter : record.wagerAfter = v) :
    ∃ r', r.raised eff record actor v = .ok r' ∧ r'.contributions = Function.update r.contributions actor v ∧ r'.wager = v := by
  obtain ⟨mapped, hmap⟩ := mapAction_within h hle
  refine ⟨⟨Function.update r.contributions actor v, v, r.history ++ [mapped]⟩, ?_, rfl, rfl⟩
  rw [raised, hmap]
  exact followed_within hafter

/-- A turn of a duel is replayed to the bet and wager it left. -/
theorem replayRecord_plays {bet' wager' : Nat}
    (hplays : record.action.plays (r.contributions actor) r.wager = some (bet', wager'))
    (hafter : record.wagerAfter = wager') (hle : wager' ≤ eff) :
    ∃ r', replayRecord eff record actor r = .ok r' ∧ r'.contributions = Function.update r.contributions actor bet' ∧
      r'.wager = wager' := by
  unfold replayRecord
  dsimp only
  cases haction : record.action with
  | fold | allIn n =>
    rw [haction] at hplays
    cases hplays
  | check =>
    rw [haction, Action.plays] at hplays
    by_cases hat : r.contributions actor = r.wager
    · rw [if_pos hat] at hplays
      obtain ⟨rfl, rfl⟩ := Prod.mk.inj (Option.some.inj hplays)
      dsimp only
      rw [if_pos hat, Replay.followed_within hafter]
      exact ⟨_, rfl, (Function.update_eq_self actor r.contributions).symm, rfl⟩
    · rw [if_neg hat] at hplays
      cases hplays
  | call n =>
    rw [haction, Action.plays] at hplays
    by_cases hcost : r.contributions actor < r.wager ∧ n = r.wager - r.contributions actor
    · rw [if_pos hcost] at hplays
      obtain ⟨rfl, rfl⟩ := Prod.mk.inj (Option.some.inj hplays)
      dsimp only
      rw [if_pos hcost, Replay.followed_within hafter]
      exact ⟨_, rfl, rfl, rfl⟩
    · rw [if_neg hcost] at hplays
      cases hplays
  | bet n =>
    rw [haction, Action.plays] at hplays
    by_cases hbet : r.wager = 0 ∧ r.contributions actor = 0 ∧ 0 < n
    · rw [if_pos hbet] at hplays
      obtain ⟨rfl, rfl⟩ := Prod.mk.inj (Option.some.inj hplays)
      dsimp only
      rw [if_pos ⟨hbet.1, hbet.2.1, hbet.2.2, hle⟩]
      exact Replay.raised_within (Or.inl ⟨haction, hbet.1⟩) hle hafter
    · rw [if_neg hbet] at hplays
      cases hplays
  | raise n =>
    rw [haction, Action.plays] at hplays
    by_cases hraise : r.contributions actor < r.wager ∧ r.wager < n
    · rw [if_pos hraise] at hplays
      obtain ⟨rfl, rfl⟩ := Prod.mk.inj (Option.some.inj hplays)
      dsimp only
      rw [if_pos ⟨hraise.1, hraise.2, hle⟩]
      exact Replay.raised_within (Or.inr ⟨haction, Nat.zero_lt_of_lt hraise.1⟩) hle hafter
    · rw [if_neg hraise] at hplays
      cases hplays

end line

/-- Within the effective stack a duel is replayed to its own bets and wager. -/
theorem replayRiver_duel {eff : Nat} {players : Fin 2 → SeatId} {records : List MultiwayActionRecord} {bets : Fin 2 → Nat}
    {wager : Nat}
    (hd : Duel players records bets wager) (hin : ∀ record ∈ records, record.wagerAfter ≤ eff) :
    ∃ r, replayRiver eff players (records.map .ofRecord) = .ok r ∧ r.contributions = bets ∧ r.wager = wager := by
  induction hd with
  | nil => exact ⟨_, rfl, rfl, rfl⟩
  | @snoc records bets wager bet' wager' record hd hseat hplays hafter ih =>
    obtain ⟨before, hbefore, rfl, rfl⟩ := ih fun record hr => hin record (List.mem_append_left _ hr)
    have hle : wager' ≤ eff := hafter ▸ hin record (List.mem_append_right _ (List.mem_singleton_self _))
    have hafter : (PublicAction.ofRecord record).wagerAfter = wager' := hafter
    obtain ⟨r, hr, hbets, hwager⟩ := replayRecord_plays hplays hafter hle
    refine ⟨r, ?_, hbets, hwager⟩
    rw [List.map_append, List.map_singleton, replayRiver_append, hbefore, List.length_map]
    show replayTurn eff players before (.ofRecord record, records.length) = .ok r
    unfold replayTurn
    have hplace : ¬ (PublicAction.ofRecord record).seat ≠ players (turnAfter records.length) := not_not_intro hseat
    rw [if_neg hplace, hr]

end OpenFelt.Trainer
