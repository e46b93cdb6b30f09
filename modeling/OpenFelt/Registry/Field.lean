/-
  OpenFelt.Registry.Field — the field of a freezeout, from registration to the last hand
  (`src/tournament.rs`).

  A run registers, starts, lets the clock tick and closes hands whose results list the
  seats still in play and keep the field's chips. `Fielded` is what every state of such a
  run has (`Fielded.play`): who is out stands at the next place up from the last and is
  nobody still in, and somebody always is.
-/

import OpenFelt.Registry.Accepts

namespace OpenFelt

inductive TournamentOp where
  | register (entrant : TournamentEntrant)
  | unregister (player : PlayerId)
  | start
  | cancel
  | tick (elapsedMillis : Nat)
  | hand (startingStacks finalStacks : List (SeatId × Nat))

def TournamentOp.apply : TournamentOp → TournamentController → TournamentController
  | register entrant, c => (c.register entrant).2
  | unregister player, c => (c.unregister player).2
  | start, c => c.start.2
  | cancel, c => c.cancel.2
  | tick elapsedMillis, c => c.tickBetweenHands elapsedMillis
  | hand startingStacks finalStacks, c => (c.completeHand startingStacks finalStacks).2

namespace TournamentController

variable {c c' : TournamentController} {config : TournamentConfig} {starting final : List (SeatId × Nat)}

/-- Hands are dealt. -/
def Playing (c : TournamentController) : Prop := c.status = .running ∨ c.status = .break

def seatsInPlay (c : TournamentController) : List SeatId := c.remaining.keys.filterMap c.entrants.find?

/-- A hand's result lists the seats still in play and keeps the field's chips. -/
structure Conserves (c : TournamentController) (starting final : List (SeatId × Nat)) : Prop where
  dealt : (starting.map (·.1)).Perm c.seatsInPlay
  listed : (final.map (·.1)).Perm c.seatsInPlay
  field : (starting.map (·.2)).sum = c.config.entrants * c.config.startingStack
  kept : (final.map (·.2)).sum = (starting.map (·.2)).sum

def play (c : TournamentController) (ops : List TournamentOp) : TournamentController := ops.foldl (fun c op => op.apply c) c

/-- The hands of a run all conserve the field. -/
def Plays : TournamentController → List TournamentOp → Prop
  | _, [] => True
  | c, .hand starting final :: ops => (c.Playing → c.Conserves starting final) ∧ Plays (c.completeHand starting final).2 ops
  | c, op :: ops => Plays (op.apply c) ops

instance : Decidable c.Playing := inferInstanceAs (Decidable (_ ∨ _))

instance : Decidable (c.Conserves starting final) :=
  decidable_of_iff ((starting.map (·.1)).Perm c.seatsInPlay ∧ (final.map (·.1)).Perm c.seatsInPlay ∧
      (starting.map (·.2)).sum = c.config.entrants * c.config.startingStack ∧ (final.map (·.2)).sum = (starting.map (·.2)).sum)
    ⟨fun h => ⟨h.1, h.2.1, h.2.2.1, h.2.2.2⟩, fun h => ⟨h.dealt, h.listed, h.field, h.kept⟩⟩

def decidePlays : (c : TournamentController) → (ops : List TournamentOp) → Decidable (c.Plays ops)
  | _, [] => .isTrue trivial
  | c, .hand starting final :: ops =>
    @instDecidableAnd (c.Playing → c.Conserves starting final) _ inferInstance (decidePlays (c.completeHand starting final).2 ops)
  | c, .register entrant :: ops => decidePlays (c.register entrant).2 ops
  | c, .unregister player :: ops => decidePlays (c.unregister player).2 ops
  | c, .start :: ops => decidePlays c.start.2 ops
  | c, .cancel :: ops => decidePlays c.cancel.2 ops
  | c, .tick elapsedMillis :: ops => decidePlays (c.tickBetweenHands elapsedMillis) ops

instance {ops : List TournamentOp} : Decidable (c.Plays ops) := decidePlays c ops

/-! ## Places -/

/-- The invariant of a run: who is out has the next place up, and is nobody still in. -/
structure Fielded (config : TournamentConfig) (c : TournamentController) : Prop where
  valid : config.validate = .ok ()
  configured : c.config = { config with joinCode := "" }
  seats : ∀ p q s, c.entrants.find? p = some s → c.entrants.find? q = some s → p = q
  fresh : ¬ c.Playing → c.status ≠ .complete → c.standings = []
  full : c.Playing ∨ c.status = .complete → c.entrants.size = config.entrants
  placed : c.standings.map (·.place) = (List.range c.standings.length).map (config.entrants - ·)
  seated : ∀ x ∈ c.standings, c.entrants.find? x.player = some x.seat
  once : (c.standings.map (·.player)).Nodup
  inPlay : c.status ≠ .complete → ∀ p, c.remaining.contains p = true ↔
    c.entrants.contains p = true ∧ p ∉ c.standings.map (·.player)
  alive : c.Playing → 0 < c.remaining.size
  count : c.standings.length + (if c.status = .complete then 0 else c.remaining.size) = c.entrants.size
  paid : c.status = .complete → ∀ x ∈ c.standings,
    x.payout = ((awardsOf config.payout).findSome? fun award => if award.1 = x.place then some award.2.1 else none).getD 0

theorem validate_ok (hv : config.validate = .ok ()) : 2 ≤ config.entrants ∧ config.entrants ≤ 9 ∧ 100 ≤ config.startingStack ∧
    1 ≤ config.payout.pool ∧ config.payout.pool ≤ 1000000 ∧ config.payout.sharesBps.length ≤ config.entrants := by
  unfold TournamentConfig.validate at hv
  split at hv
  · cases hv
  rename_i hentrants
  split at hv
  · cases hv
  split at hv
  · cases hv
  split at hv
  · cases hv
  split at hv
  · cases hv
  split at hv
  · cases hv
  rename_i hstack
  split at hv
  · cases hv
  rename_i hpayout
  simp only [Bool.or_eq_true, decide_eq_true_eq, not_or, Nat.not_lt] at hentrants hstack hpayout
  omega

/-- Before the start nobody is out. -/
theorem Fielded.of_waiting (hvalid : config.validate = .ok ()) (hconfig : c.config = { config with joinCode := "" })
    (hseats : ∀ p q s, c.entrants.find? p = some s → c.entrants.find? q = some s → p = q) (hidle : ¬ c.Playing)
    (hopen : c.status ≠ .complete) (hnone : c.standings = [])
    (hall : ∀ p, c.remaining.contains p = true ↔ c.entrants.contains p = true) : Fielded config c := by
  refine ⟨hvalid, hconfig, hseats, fun _ _ => hnone, fun h => ?_, by rw [hnone]; rfl, by rw [hnone]; simp, by rw [hnone]; simp,
    ?_, fun h => absurd h hidle, ?_, fun h => absurd h hopen⟩
  · rcases h with h | h
    · exact absurd h hidle
    · exact absurd h hopen
  · intro _ p
    rw [hall p, hnone]
    simp
  · rw [hnone, if_neg hopen, OrdMap.size_congr hall]
    exact Nat.zero_add _

/-- A call before the start that leaves the status. -/
theorem Fielded.waits (hf : Fielded config c) (hregistering : c.status = .registering) (hconfig : c'.config = c.config)
    (hstatus : c'.status = .registering ∨ c'.status = .cancelled) (hstandings : c'.standings = c.standings)
    (hseats : ∀ p q s, c'.entrants.find? p = some s → c'.entrants.find? q = some s → p = q)
    (hall : ∀ p, c'.remaining.contains p = true ↔ c'.entrants.contains p = true) : Fielded config c' := by
  have hidle : ¬ c'.Playing := by
    unfold Playing
    rcases hstatus with h | h <;> simp [h]
  have hidle' : ¬ c.Playing := by simp [Playing, hregistering]
  have hopen : c'.status ≠ .complete := by rcases hstatus with h | h <;> simp [h]
  exact .of_waiting hf.valid (hconfig.trans hf.configured) hseats hidle hopen
    (hstandings.trans (hf.fresh hidle' (by simp [hregistering]))) hall

/-- Before the start every entrant is in. -/
theorem Fielded.all_in (hf : Fielded config c) (hregistering : c.status = .registering) (p : PlayerId) :
    c.remaining.contains p = true ↔ c.entrants.contains p = true := by
  have hnone := hf.fresh (by simp [Playing, hregistering]) (by simp [hregistering])
  rw [hf.inPlay (by simp [hregistering]) p, hnone]
  simp

theorem Fielded.register (hf : Fielded config c) (entrant : TournamentEntrant) : Fielded config (c.register entrant).2 := by
  unfold TournamentController.register
  split
  · exact hf
  rename_i hstatus
  split
  · exact hf
  split
  · exact hf
  rename_i hnew
  split
  · exact hf
  have hregistering : c.status = .registering := not_not.mp hstatus
  simp only [Bool.or_eq_true, not_or, List.any_eq_true, decide_eq_true_eq, not_exists, not_and] at hnew
  have hvacant : ∀ p, c.entrants.find? p ≠ some entrant.seat := fun p hp => hnew.2 _ (OrdMap.mem_values.mpr ⟨p, hp⟩) rfl
  refine hf.waits hregistering rfl (Or.inl hregistering) rfl ?_ ?_
  · intro p q s hp hq
    dsimp only at hp hq
    rw [OrdMap.find_insert] at hp hq
    split at hp
    · rename_i hpe
      cases hp
      split at hq
      · rename_i hqe
        exact hpe.trans hqe.symm
      · exact absurd hq (hvacant q)
    · split at hq
      · cases hq
        exact absurd hp (hvacant p)
      · exact hf.seats p q s hp hq
  · intro p
    simp only [OrdMap.contains, OrdMap.find_insert]
    by_cases hp : p = entrant.player
    · simp [hp]
    · rw [if_neg hp, if_neg hp]
      exact hf.all_in hregistering p

theorem Fielded.unregister (hf : Fielded config c) (player : PlayerId) : Fielded config (c.unregister player).2 := by
  unfold TournamentController.unregister
  split
  · exact hf
  rename_i hstatus
  have hregistering : c.status = .registering := not_not.mp hstatus
  refine hf.waits hregistering rfl (Or.inl hregistering) rfl ?_ ?_
  · intro p q s hp hq
    dsimp only at hp hq
    rw [OrdMap.find_erase] at hp hq
    split at hp
    · cases hp
    · split at hq
      · cases hq
      · exact hf.seats p q s hp hq
  · intro p
    simp only [OrdMap.contains, OrdMap.find_erase]
    by_cases hp : p = player
    · simp [hp]
    · rw [if_neg hp, if_neg hp]
      exact hf.all_in hregistering p

theorem Fielded.cancel (hf : Fielded config c) : Fielded config c.cancel.2 := by
  unfold TournamentController.cancel
  split
  · exact hf
  rename_i hstatus
  have hregistering : c.status = .registering := not_not.mp hstatus
  exact hf.waits hregistering rfl (Or.inr rfl) rfl hf.seats (hf.all_in hregistering)

theorem Fielded.start (hf : Fielded config c) : Fielded config c.start.2 := by
  unfold TournamentController.start
  split
  · exact hf
  rename_i hstatus
  split
  · exact hf
  rename_i hcount
  have hregistering : c.status = .registering := not_not.mp hstatus
  have hnone := hf.fresh (by simp [Playing, hregistering]) (by simp [hregistering])
  have hentrants : c.config.entrants = config.entrants := by rw [hf.configured]
  have hfull : c.entrants.size = config.entrants := (not_not.mp hcount).trans hentrants
  have hsize : c.remaining.size = c.entrants.size := OrdMap.size_congr (hf.all_in hregistering)
  obtain ⟨htwo, _⟩ := validate_ok hf.valid
  refine ⟨hf.valid, hf.configured, hf.seats, fun h _ => absurd (Or.inl rfl) h, fun _ => hfull, hf.placed, hf.seated, hf.once,
    fun _ => hf.inPlay (by simp [hregistering]), fun _ => ?_, ?_, fun h => by cases h⟩
  · dsimp only
    omega
  · dsimp only
    rw [hnone, if_neg (by simp), List.length_nil]
    omega

/-! ### The clock -/

/-- The clock moves its own fields, between play and break. -/
structure Ticked (c c' : TournamentController) : Prop where
  frame : c' = { c with status := c'.status, levelIndex := c'.levelIndex, levelElapsedMillis := c'.levelElapsedMillis,
                        breakRemainingMillis := c'.breakRemainingMillis }
  playing : c'.Playing

theorem tickOnce_ticked (hp : c.Playing) (elapsed : Nat) : Ticked c (c.tickOnce elapsed).2 := by
  unfold tickOnce
  split
  · refine ⟨rfl, ?_⟩
    unfold Playing
    dsimp only
    split
    · exact Or.inl rfl
    · exact hp
  · dsimp only
    split
    · refine ⟨rfl, ?_⟩
      unfold Playing
      dsimp only
      split
      · exact Or.inr rfl
      · exact hp
    · exact ⟨rfl, hp⟩

theorem Ticked.trans {c'' : TournamentController} (h : Ticked c c') (h' : Ticked c' c'') : Ticked c c'' := by
  refine ⟨?_, h'.playing⟩
  rw [h'.frame, h.frame]

theorem tickLoop_ticked (fuel elapsed : Nat) (hp : c.Playing) : Ticked c (tickLoop fuel elapsed c) := by
  induction fuel generalizing elapsed c with
  | zero => exact ⟨rfl, hp⟩
  | succ fuel ih =>
    unfold tickLoop
    split
    · exact ⟨rfl, hp⟩
    · have honce := tickOnce_ticked hp elapsed
      exact honce.trans (ih _ honce.playing)

theorem Fielded.ticked (hf : Fielded config c) (hp : c.Playing) (ht : Ticked c c') : Fielded config c' := by
  have hopen : ∀ d : TournamentController, d.Playing → d.status ≠ .complete := by
    intro d hd hcomplete
    rcases hd with hd | hd <;> rw [hcomplete] at hd <;> cases hd
  have hnow := ht.playing
  have hcount := hf.count
  rw [if_neg (hopen c hp)] at hcount
  have hopen' := hopen c' hnow
  have hstandings : c'.standings = c.standings := by rw [ht.frame]
  have hremaining : c'.remaining = c.remaining := by rw [ht.frame]
  have hentrants : c'.entrants = c.entrants := by rw [ht.frame]
  have hconfig : c'.config = c.config := by rw [ht.frame]
  refine ⟨hf.valid, hconfig.trans hf.configured, by rw [hentrants]; exact hf.seats, fun h _ => absurd hnow h,
    fun _ => by rw [hentrants]; exact hf.full (Or.inl hp), by rw [hstandings]; exact hf.placed,
    by rw [hstandings, hentrants]; exact hf.seated, by rw [hstandings]; exact hf.once,
    fun _ => by rw [hremaining, hentrants, hstandings]; exact hf.inPlay (hopen c hp),
    fun _ => by rw [hremaining]; exact hf.alive hp, by rw [hstandings, if_neg hopen', hremaining, hentrants]; exact hcount,
    fun h => absurd h hopen'⟩

theorem Fielded.tick (hf : Fielded config c) (elapsedMillis : Nat) : Fielded config (c.tickBetweenHands elapsedMillis) := by
  unfold tickBetweenHands
  split
  · rename_i hp
    have hp : c.Playing := by simpa [Playing] using hp
    exact hf.ticked hp (tickLoop_ticked _ _ hp)
  · exact hf

/-! ## Eliminations -/

/-- `out` are the standings of the seats in `busted`, from place `n - i` up. -/
structure Eliminated (c : TournamentController) (n i : Nat) (busted : List SeatId) (out : List TournamentStanding)
    (c' : TournamentController) : Prop where
  frame : c' = { c with remaining := c'.remaining, standings := c.standings ++ out }
  seats : out.map (·.seat) = busted
  places : out.map (·.place) = (List.range' i busted.length).map (n - ·)
  seated : ∀ x ∈ out, c.entrants.find? x.player = some x.seat ∧ c.remaining.contains x.player = true
  left : ∀ p, c'.remaining.contains p = true ↔ c.remaining.contains p = true ∧ p ∉ out.map (·.player)
  size : c'.remaining.size + busted.length = c.remaining.size

theorem eliminate_spec {n i : Nat} {busted : List (SeatId × Nat)} (hn : (busted.map (·.1)).Nodup) (hbound : n ≤ 255)
    (hin : ∀ e ∈ busted, ∃ player, c.entrants.entries.find? (fun entrant => entrant.2 = e.1) = some (player, e.1) ∧
      c.remaining.contains player = true) :
    ∃ c' out, eliminate n i busted c = (.ok (), c') ∧ Eliminated c n i (busted.map (·.1)) out c' := by
  induction busted generalizing c i with
  | nil => exact ⟨c, [], rfl, by simp, rfl, rfl, by simp, by simp, rfl⟩
  | cons e rest ih =>
    obtain ⟨hnew, hrest⟩ := List.nodup_cons.mp hn
    obtain ⟨seat, stack⟩ := e
    obtain ⟨player, hfind, hkept⟩ := hin (seat, stack) List.mem_cons_self
    have hseat : c.entrants.find? player = some seat := OrdMap.mem_entries.mp (List.mem_of_find?_eq_some hfind)
    obtain ⟨v, hv⟩ := OrdMap.contains_iff.mp hkept
    let next : TournamentController :=
      { c with remaining := c.remaining.erase player, standings := c.standings ++ [⟨player, seat, n - i, 0⟩] }
    obtain ⟨c', out, hrun, he⟩ := @ih next (i + 1) hrest fun e he => by
      obtain ⟨other, hother, hin⟩ := hin e (List.mem_cons_of_mem _ he)
      refine ⟨other, hother, ?_⟩
      have hne : other ≠ player := by
        rintro rfl
        have hsame := OrdMap.mem_entries.mp (List.mem_of_find?_eq_some hother)
        rw [hseat] at hsame
        exact hnew (List.mem_map.mpr ⟨e, he, (Option.some.inj hsame).symm⟩)
      show (c.remaining.erase player).contains other = true
      rw [OrdMap.contains, OrdMap.find_erase_ne hne]
      exact hin
    refine ⟨c', ⟨player, seat, n - i, 0⟩ :: out, ?_, ?_, ?_, ?_, ?_, ?_, ?_⟩
    · rw [eliminate, hfind]
      simp only [hkept, Bool.not_true, Bool.false_eq_true, if_false]
      rw [if_neg (by omega)]
      exact hrun
    · rw [he.frame]
      simp [next]
    · rw [List.map_cons, he.seats]
      rfl
    · rw [List.map_cons, he.places, List.map_cons, List.length_cons, List.range'_succ]
      rfl
    · intro x hx
      rcases List.mem_cons.mp hx with rfl | hx
      · exact ⟨hseat, hkept⟩
      · obtain ⟨hfound, hstays⟩ := he.seated x hx
        refine ⟨hfound, ?_⟩
        rw [OrdMap.contains, OrdMap.find_erase] at hstays
        split at hstays
        · cases hstays
        · exact hstays
    · intro p
      rw [he.left p, List.map_cons, List.mem_cons, not_or, OrdMap.contains, OrdMap.find_erase]
      by_cases hp : p = player
      · simp [hp]
      · rw [if_neg hp]
        simp [hp, OrdMap.contains]
    · have hsize := OrdMap.size_erase hv
      have hrest : c'.remaining.size + (rest.map (·.1)).length = (c.remaining.erase player).size := he.size
      rw [List.map_cons, List.length_cons]
      omega

/-! ### Who busts -/

/-- The seat lost all it had. -/
def Busts (starting final : List (SeatId × Nat)) (seat : SeatId) (stack : Nat) : Prop :=
  (seat, stack) ∈ starting ∧ 0 < stack ∧ (seat, 0) ∈ final

/-- Fewest chips first, then by seat. -/
def Shorter (a b : SeatId × Nat) : Prop := a.2 < b.2 ∨ a.2 = b.2 ∧ a.1 ≤ b.1

instance : DecidableRel Shorter := fun a b => inferInstanceAs (Decidable (a.2 < b.2 ∨ a.2 = b.2 ∧ a.1 ≤ b.1))

instance : IsTrans (SeatId × Nat) Shorter := ⟨fun a b c hab hbc => by simp only [Shorter, Fin.le_def] at *; omega⟩

instance : Std.Total Shorter := ⟨fun a b => by simp only [Shorter, Fin.le_def]; omega⟩

theorem find_stacksBySeat {entries : List (SeatId × Nat)} (hn : (entries.map (·.1)).Nodup) {seat : SeatId} {stack : Nat} :
    (stacksBySeat entries).find? seat = some stack ↔ (seat, stack) ∈ entries := by
  have hcollect : (stacksBySeat entries).find? seat = (entries.lookup seat).or none := OrdMap.find_collect hn .empty seat
  rw [hcollect, Option.or_none, OrdMap.mem_lookup hn]

theorem mem_bustedSeats (hstarting : (starting.map (·.1)).Nodup) (hfinal : (final.map (·.1)).Nodup) {e : SeatId × Nat} :
    e ∈ bustedSeats (stacksBySeat starting) (stacksBySeat final) ↔ Busts starting final e.1 e.2 := by
  unfold bustedSeats Busts
  rw [List.mem_insertionSort, List.mem_filter, OrdMap.mem_entries, find_stacksBySeat hstarting]
  simp only [Bool.and_eq_true, decide_eq_true_eq, find_stacksBySeat hfinal]

theorem pairwise_bustedSeats (before after : OrdMap SeatId Nat) : (bustedSeats before after).Pairwise Shorter :=
  List.pairwise_insertionSort Shorter _

theorem Fielded.mem_seatsInPlay {seat : SeatId} :
    seat ∈ c.seatsInPlay ↔ ∃ p, c.remaining.contains p = true ∧ c.entrants.find? p = some seat := by
  unfold seatsInPlay
  rw [List.mem_filterMap]
  constructor
  · intro ⟨p, hp, hseat⟩
    exact ⟨p, OrdMap.contains_iff.mpr (OrdMap.mem_keys.mp hp), hseat⟩
  · intro ⟨p, hp, hseat⟩
    exact ⟨p, OrdMap.mem_keys.mpr (OrdMap.contains_iff.mp hp), hseat⟩

theorem Fielded.nodup_seatsInPlay (hf : Fielded config c) : c.seatsInPlay.Nodup :=
  c.remaining.nodup_keys.filterMap fun p q s hp hq => hf.seats p q s hp hq

/-- The registered player of a seat. -/
theorem Fielded.entrant_of_seat (hf : Fielded config c) {p : PlayerId} {seat : SeatId} (hp : c.entrants.find? p = some seat) :
    c.entrants.entries.find? (fun entrant => entrant.2 = seat) = some (p, seat) := by
  cases hfind : c.entrants.entries.find? fun entrant => entrant.2 = seat with
  | none =>
    have hnone := List.find?_eq_none.mp hfind (p, seat) (OrdMap.mem_entries.mpr hp)
    simp at hnone
  | some entrant =>
    obtain ⟨q, place⟩ := entrant
    have hplace := List.find?_some hfind
    obtain rfl : place = seat := of_decide_eq_true hplace
    have hq := OrdMap.mem_entries.mp (List.mem_of_find?_eq_some hfind)
    rw [hf.seats q p place hq hp]

/-! ## One hand -/

theorem Conserves.nodup (hf : Fielded config c) (hc : c.Conserves starting final) :
    (starting.map (·.1)).Nodup ∧ (final.map (·.1)).Nodup :=
  ⟨hc.dealt.nodup_iff.mpr hf.nodup_seatsInPlay, hc.listed.nodup_iff.mpr hf.nodup_seatsInPlay⟩

/-- Somebody has chips left. -/
theorem Conserves.survivor (hf : Fielded config c) (hc : c.Conserves starting final) : ∃ p seat stack,
    c.remaining.contains p = true ∧ c.entrants.find? p = some seat ∧ (seat, stack) ∈ final ∧ 0 < stack := by
  have hchips : 0 < (final.map (·.2)).sum := by
    obtain ⟨htwo, _, hstack, _⟩ := validate_ok hf.valid
    rw [hc.kept, hc.field, hf.configured]
    exact Nat.mul_pos (by dsimp only; omega) (by dsimp only; omega)
  obtain ⟨stack, hmem, hpos⟩ : ∃ stack ∈ final.map (·.2), 0 < stack := by
    by_contra hnone
    refine absurd (List.sum_eq_zero_iff_forall_eq_nat.mpr fun x hx => ?_) hchips.ne'
    exact Nat.eq_zero_of_not_pos fun hpos => hnone ⟨x, hx, hpos⟩
  obtain ⟨⟨seat, stack⟩, hentry, rfl⟩ := List.mem_map.mp hmem
  have hin : seat ∈ c.seatsInPlay := hc.listed.mem_iff.mp (List.mem_map_of_mem hentry)
  obtain ⟨p, hp, hseat⟩ := Fielded.mem_seatsInPlay.mp hin
  exact ⟨p, seat, stack, hp, hseat, hentry, hpos⟩

/-- The seats that bust in a hand. -/
abbrev bustedIn (starting final : List (SeatId × Nat)) : List (SeatId × Nat) :=
  bustedSeats (stacksBySeat starting) (stacksBySeat final)

/-- A result that conserves the field closes the hand. -/
theorem Fielded.closes (hf : Fielded config c) (hp : c.Playing) (hc : c.Conserves starting final) :
    ∃ left out, Eliminated c c.remaining.size 0 ((bustedIn starting final).map (·.1)) out left ∧ 0 < left.remaining.size ∧
      c.completeHand starting final = (.ok (), { left with handsCompleted := saturatingAdd64 c.handsCompleted 1 }.crown) := by
  obtain ⟨hstarting, hfinal⟩ := hc.nodup hf
  obtain ⟨_, hnine, _⟩ := validate_ok hf.valid
  have hopen : c.status ≠ .complete := by
    intro hcomplete
    rcases hp with hp | hp <;> rw [hcomplete] at hp <;> cases hp
  have hbound : c.remaining.size ≤ 255 := by
    have hcount := hf.count
    have hfull := hf.full (Or.inl hp)
    rw [if_neg hopen] at hcount
    omega
  have hin : ∀ e ∈ bustedIn starting final, ∃ player,
      c.entrants.entries.find? (fun entrant => entrant.2 = e.1) = some (player, e.1) ∧ c.remaining.contains player = true := by
    intro e he
    obtain ⟨hdealt, _⟩ := (mem_bustedSeats hstarting hfinal).mp he
    obtain ⟨p, hkept, hseat⟩ := Fielded.mem_seatsInPlay.mp (hc.dealt.mem_iff.mp (List.mem_map_of_mem hdealt))
    exact ⟨p, hf.entrant_of_seat hseat, hkept⟩
  obtain ⟨left, out, hrun, he⟩ := eliminate_spec (i := 0) (nodup_bustedSeats _ _) hbound hin
  refine ⟨left, out, he, ?_, ?_⟩
  · -- whoever has chips has not bust
    obtain ⟨p, seat, stack, hkept, hseat, hentry, hpos⟩ := hc.survivor hf
    have hstays : left.remaining.contains p = true := by
      refine (he.left p).mpr ⟨hkept, fun hout => ?_⟩
      obtain ⟨x, hx, rfl⟩ := List.mem_map.mp hout
      have hbusted : x.seat ∈ (bustedIn starting final).map (·.1) := he.seats ▸ List.mem_map_of_mem hx
      obtain ⟨e, hmem, heq⟩ := List.mem_map.mp hbusted
      obtain ⟨_, _, hzero⟩ := (mem_bustedSeats hstarting hfinal).mp hmem
      have hsame : seat = e.1 := by
        rw [(he.seated x hx).1] at hseat
        rw [← Option.some.inj hseat, ← heq]
      rw [hsame] at hentry
      have hboth := (OrdMap.mem_lookup hfinal).mpr hentry
      rw [(OrdMap.mem_lookup hfinal).mpr hzero] at hboth
      have := Option.some.inj hboth
      omega
    obtain ⟨v, hv⟩ := OrdMap.contains_iff.mp hstays
    have hsize := OrdMap.size_erase hv
    omega
  · have hseats : ((stacksBySeat starting).size ≠ (stacksBySeat final).size ||
        (stacksBySeat starting).keys.any fun seat => !(stacksBySeat final).contains seat) = false := by
      rw [sameSeats_iff]
      intro q
      rw [contains_stacksBySeat, contains_stacksBySeat, hc.dealt.mem_iff, hc.listed.mem_iff]
    unfold TournamentController.completeHand
    have hplaying : c.status = .running ∨ c.status = .break := hp
    rw [if_neg hopen, if_neg (not_not_intro hplaying)]
    dsimp only
    rw [if_neg (by rw [hseats]; simp), hrun, he.frame]

theorem Fielded.open_of_playing (hp : c.Playing) : c.status ≠ .complete := by
  intro hcomplete
  rcases hp with hp | hp <;> rw [hcomplete] at hp <;> cases hp

/-- The standings of the busted continue the ranking. -/
theorem Fielded.eliminated {left : TournamentController} {busted : List SeatId} {out : List TournamentStanding}
    (hf : Fielded config c) (hp : c.Playing) (he : Eliminated c c.remaining.size 0 busted out left) (hnodup : busted.Nodup)
    (hpos : 0 < left.remaining.size) (handsCompleted : Nat) :
    Fielded config { left with handsCompleted := handsCompleted } ∧
      ({ left with handsCompleted := handsCompleted } : TournamentController).Playing := by
  have hstandings : left.standings = c.standings ++ out := by rw [he.frame]
  have hentrants : left.entrants = c.entrants := by rw [he.frame]
  have hstatus : left.status = c.status := by rw [he.frame]
  have hconfig : left.config = c.config := by rw [he.frame]
  have hopen := Fielded.open_of_playing hp
  have hplaying : left.Playing := by
    unfold Playing
    rw [hstatus]
    exact hp
  have hlength : out.length = busted.length := by rw [← he.seats, List.length_map]
  have hcount := hf.count
  rw [if_neg hopen, hf.full (Or.inl hp)] at hcount
  -- distinct seats are distinct players
  have honce : (out.map (·.player)).Nodup := by
    have hseats : (out.map (·.player)).map (fun p => (c.entrants.find? p).getD 0) = busted := by
      rw [← he.seats, List.map_map]
      refine List.map_congr_left fun x hx => ?_
      simp [(he.seated x hx).1]
    exact List.Nodup.of_map _ (hseats ▸ hnodup)
  refine ⟨⟨hf.valid, hconfig.trans hf.configured, ?_, fun h _ => absurd hplaying h, fun _ => ?_, ?_, ?_, ?_, fun _ p => ?_,
    fun _ => hpos, ?_, fun h => absurd (hstatus ▸ h) hopen⟩, hplaying⟩
  · rw [hentrants]
    exact hf.seats
  · rw [hentrants]
    exact hf.full (Or.inl hp)
  · rw [hstandings, List.map_append, hf.placed, he.places, List.length_append, List.range_add, List.map_append, hlength,
      ← List.range_eq_range', List.map_map]
    congr 1
    refine List.map_congr_left fun k _ => ?_
    simp only [Function.comp_apply]
    omega
  · rw [hstandings, hentrants]
    intro x hx
    rcases List.mem_append.mp hx with hx | hx
    · exact hf.seated x hx
    · exact (he.seated x hx).1
  · rw [hstandings, List.map_append]
    refine List.nodup_append'.mpr ⟨hf.once, honce, fun p hp hout => ?_⟩
    obtain ⟨x, hx, rfl⟩ := List.mem_map.mp hout
    exact ((hf.inPlay hopen x.player).mp (he.seated x hx).2).2 hp
  · rw [hstandings, hentrants, List.map_append, List.mem_append, not_or, he.left p, hf.inPlay hopen p]
    tauto
  · have hsize := he.size
    dsimp only
    rw [hstandings, hentrants, hstatus, if_neg hopen, List.length_append, hlength, hf.full (Or.inl hp)]
    omega

/-- The payout of a place. -/
def payoutAt (plan : TournamentPayoutPlan) (place : Nat) : Nat :=
  ((awardsOf plan).findSome? fun award => if award.1 = place then some award.2.1 else none).getD 0

def withPayout (plan : TournamentPayoutPlan) (x : TournamentStanding) : TournamentStanding :=
  { x with payout := payoutAt plan x.place }

/-- The tournament won by the player at `seat`. -/
def wonBy (c : TournamentController) (winner : PlayerId) (seat : SeatId) : TournamentController :=
  { c with
    standings := (c.standings ++ [TournamentStanding.mk winner seat 1 0]).map (withPayout c.config.payout)
    status := .complete }

theorem crown_cases (c : TournamentController) : (c.crown = c ∧ c.remaining.size ≠ 1) ∨ ∃ winner, c.remaining.keys = [winner] ∧
    c.crown = c.wonBy winner ((c.entrants.find? winner).getD 0) := by
  unfold crown
  split
  · rename_i winner hkeys
    exact Or.inr ⟨winner, hkeys, rfl⟩
  · rename_i hkeys
    refine Or.inl ⟨rfl, fun hone => ?_⟩
    rw [OrdMap.size_eq_keys] at hone
    obtain ⟨winner, hw⟩ := List.length_eq_one_iff.mp hone
    exact hkeys winner hw

theorem Fielded.crown (hf : Fielded config c) (hp : c.Playing) : Fielded config c.crown := by
  rcases c.crown_cases with ⟨hsame, _⟩ | ⟨winner, hkeys, hcrown⟩
  · rw [hsame]
    exact hf
  have hopen := Fielded.open_of_playing hp
  have hcount := hf.count
  have hone : c.remaining.size = 1 := by rw [OrdMap.size_eq_keys, hkeys, List.length_singleton]
  rw [if_neg hopen, hone, hf.full (Or.inl hp)] at hcount
  have hwinner : c.remaining.contains winner = true := by
    rw [OrdMap.contains_iff, ← OrdMap.mem_keys, hkeys]
    exact List.mem_singleton_self _
  obtain ⟨hentered, hnew⟩ := (hf.inPlay hopen winner).mp hwinner
  obtain ⟨seat, hseat⟩ := OrdMap.contains_iff.mp hentered
  have hkeep : ∀ (l : List TournamentStanding), (l.map (withPayout c.config.payout)).map (·.place) = l.map (·.place) ∧
      (l.map (withPayout c.config.payout)).map (·.player) = l.map (·.player) := by
    intro l
    rw [List.map_map, List.map_map]
    exact ⟨rfl, rfl⟩
  rw [hcrown, hseat, Option.getD_some]
  have hidle : ¬ (c.wonBy winner seat).Playing := by
    intro h
    rcases h with h | h <;> cases h
  refine ⟨hf.valid, hf.configured, hf.seats, fun _ h => absurd rfl h, fun _ => hf.full (Or.inl hp), ?_, ?_, ?_,
    fun h => absurd rfl h, fun h => absurd h hidle, ?_, ?_⟩
  · unfold wonBy
    rw [(hkeep _).1, List.map_append, hf.placed, List.length_map, List.length_append, List.length_singleton, List.range_succ,
      List.map_append]
    have hlast : config.entrants - c.standings.length = 1 := by omega
    simp [hlast]
  · intro x hx
    obtain ⟨y, hy, rfl⟩ := List.mem_map.mp hx
    rcases List.mem_append.mp hy with hy | hy
    · exact hf.seated y hy
    · rw [List.mem_singleton.mp hy]
      exact hseat
  · unfold wonBy
    rw [(hkeep _).2, List.map_append]
    refine List.nodup_append'.mpr ⟨hf.once, List.nodup_singleton _, fun p hp hout => ?_⟩
    rw [List.map_singleton, List.mem_singleton] at hout
    rw [show p = winner from hout] at hp
    exact hnew hp
  · unfold wonBy
    rw [if_pos rfl, List.length_map, List.length_append, List.length_singleton, hf.full (Or.inl hp)]
    omega
  · intro _ x hx
    obtain ⟨y, _, rfl⟩ := List.mem_map.mp hx
    show payoutAt c.config.payout y.place = _
    rw [hf.configured]
    rfl

theorem Fielded.hand (hf : Fielded config c) (hc : c.Playing → c.Conserves starting final) :
    Fielded config (c.completeHand starting final).2 := by
  by_cases hp : c.Playing
  · obtain ⟨left, out, he, hpos, hclosed⟩ := hf.closes hp (hc hp)
    rw [hclosed]
    obtain ⟨hleft, hplaying⟩ := hf.eliminated hp he (nodup_bustedSeats _ _) hpos (saturatingAdd64 c.handsCompleted 1)
    exact hleft.crown hplaying
  · have hsame : (c.completeHand starting final).2 = c := by
      unfold TournamentController.completeHand
      split
      · rfl
      · rw [if_pos (show ¬ (c.status = .running ∨ c.status = .break) from hp)]
    rw [hsame]
    exact hf

theorem fielded_new (hnew : TournamentController.new config = .ok c) : Fielded config c := by
  unfold TournamentController.new at hnew
  cases hvalid : config.validate with
  | error e =>
    rw [hvalid] at hnew
    cases hnew
  | ok u =>
    rw [hvalid] at hnew
    cases hnew
    refine .of_waiting hvalid rfl (fun p q s hp => ?_) (by simp [Playing]) (by simp) rfl fun p => Iff.rfl
    cases hp

theorem Fielded.play (hf : Fielded config c) (ops : List TournamentOp) (hplays : c.Plays ops) : Fielded config (c.play ops) := by
  induction ops generalizing c with
  | nil => exact hf
  | cons op ops ih =>
    cases op with
    | register entrant => exact ih (hf.register entrant) hplays
    | unregister player => exact ih (hf.unregister player) hplays
    | start => exact ih hf.start hplays
    | cancel => exact ih hf.cancel hplays
    | tick elapsedMillis => exact ih (hf.tick elapsedMillis) hplays
    | hand starting final => exact ih (hf.hand hplays.1) hplays.2

end TournamentController

end OpenFelt
