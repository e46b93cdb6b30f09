/-
  OpenFelt.Network.Admission — how many calls an address may make in a window of time
  (`src/admission.rs`).

  Translation. `allow` gives the answer and the table it leaves. Times are milliseconds of a
  clock that does not go back, and `saturating_duration_since` is the difference of `Nat`.
  The table is ordered by address as `IpAddr` is.

  Proved, over every sequence of calls in the order of their times: an address is let in at
  most `limit` times in a window, and again when the window is over and there is room; at
  most `maxAddresses` are tracked; and an address that always finds room is answered as if it
  were alone (`calls_admitted`). An address whose window is over can be kept out by others
  that fill the table (`full_table_refuses`).
-/

import Mathlib.Algebra.GroupWithZero.Nat
import OpenFelt.Lib.Budgets
import OpenFelt.Lib.OrdMap

namespace OpenFelt

inductive IpAddr where
  | v4 (bits : BitVec 32)
  | v6 (bits : BitVec 128)
  deriving DecidableEq, Repr

namespace IpAddr

/-- Every address of the first kind is before those of the second. -/
def rank : IpAddr → Nat
  | v4 bits => bits.toNat
  | v6 bits => 2 ^ 32 + bits.toNat

theorem rank_injective : Function.Injective rank := by
  rintro (a | a) (b | b) h
  · exact congrArg v4 (BitVec.eq_of_toNat_eq h)
  · have := a.isLt
    simp only [rank] at h
    omega
  · have := b.isLt
    simp only [rank] at h
    omega
  · exact congrArg v6 (BitVec.eq_of_toNat_eq (Nat.add_left_cancel h))

instance : LinearOrder IpAddr := LinearOrder.lift' rank rank_injective

end IpAddr

/-- The addresses tracked at once. -/
def maxAddresses : Nat := 1024

structure Admission where
  entries : OrdMap IpAddr Budget
  limit : Nat
  window : Nat

structure AdmissionCall where
  ip : IpAddr
  now : Nat
  deriving DecidableEq, Repr

namespace Admission

def new (limit window : Nat) : Admission := ⟨.empty, limit, window⟩

variable (a : Admission)

/-- The entries whose window is not over. -/
def sweep (now : Nat) : Admission := { a with entries := a.entries.retain fun _ budget => budget.fresh a.window now }

def allow (ip : IpAddr) (now : Nat) : Bool × Admission :=
  let a := a.sweep now
  if !a.entries.contains ip && maxAddresses ≤ a.entries.size then (false, a)
  else
    let (granted, budget) := Budget.spend a.limit now (a.entries.find? ip)
    (granted, { a with entries := a.entries.insert ip budget })

def run (calls : List AdmissionCall) : Admission := calls.foldl (fun a call => (a.allow call.ip call.now).2) a

/-- The calls with their answers. -/
def trace : Admission → List AdmissionCall → List (AdmissionCall × Bool)
  | _, [] => []
  | a, call :: rest => (call, (a.allow call.ip call.now).1) :: trace (a.allow call.ip call.now).2 rest

/-- A call of the address that is let in begins a window, unless the last one is not over. -/
def nextStart (window : Nat) (ip : IpAddr) (start : Option Nat) (answered : AdmissionCall × Bool) : Option Nat :=
  if answered.1.ip = ip ∧ answered.2 = true ∧ start.all (fun since => window ≤ answered.1.now - since) = true then
    some answered.1.now
  else start

/-- Read off the answers: when the address's last window began. -/
def windowStart (window : Nat) (ip : IpAddr) (answered : List (AdmissionCall × Bool)) : Option Nat :=
  answered.foldl (nextStart window ip) none

/-- The calls of the address let in before the time. -/
def admitted (ip : IpAddr) (finish : Nat) (answered : List (AdmissionCall × Bool)) : List (AdmissionCall × Bool) :=
  answered.filter fun e => e.1.ip = ip ∧ e.2 = true ∧ e.1.now < finish

/-- The answers to one address. -/
def answersTo (ip : IpAddr) (answered : List (AdmissionCall × Bool)) : List Bool :=
  (answered.filter fun e => e.1.ip = ip).map (·.2)

end Admission

/-! ## One call -/

namespace Admission

variable {a b : Admission} {ip other : IpAddr} {now later limit window : Nat} {calls before after : List AdmissionCall}
  {call : AdmissionCall}

/-- What is left of the address's budget at a time. -/
def left (a : Admission) (ip : IpAddr) (now : Nat) : Option Budget := Budget.live a.window now (a.entries.find? ip)

@[simp] theorem find_sweep : (a.sweep now).entries.find? ip = a.left ip now := OrdMap.find_retain _

/-- There is a place for the address when it calls. -/
def Room (a : Admission) (ip : IpAddr) (now : Nat) : Prop :=
  (a.left ip now).isSome = true ∨ (a.sweep now).entries.size < maxAddresses

instance : Decidable (a.Room ip now) := inferInstanceAs (Decidable (_ ∨ _))

theorem allow_room (h : a.Room ip now) : a.allow ip now =
    ((Budget.spend a.limit now (a.left ip now)).1,
      { a.sweep now with entries := (a.sweep now).entries.insert ip (Budget.spend a.limit now (a.left ip now)).2 }) := by
  unfold allow
  dsimp only
  rw [if_neg, find_sweep]
  · rfl
  · rw [OrdMap.contains, find_sweep, Bool.and_eq_true, Bool.not_eq_true', decide_eq_true_eq]
    rintro ⟨hnone, hfull⟩
    rcases h with hsome | hroom
    · rw [hnone] at hsome
      cases hsome
    · omega

theorem allow_full (h : ¬ a.Room ip now) : a.allow ip now = (false, a.sweep now) ∧ a.left ip now = none := by
  have hnone : a.left ip now = none := by
    by_contra hsome
    exact h (Or.inl (Option.isSome_iff_ne_none.mpr hsome))
  refine ⟨?_, hnone⟩
  unfold allow
  dsimp only
  rw [if_pos]
  rw [OrdMap.contains, find_sweep, hnone, Bool.and_eq_true, decide_eq_true_eq]
  refine ⟨rfl, ?_⟩
  by_contra hroom
  exact h (Or.inr (Nat.not_le.mp hroom))

@[simp] theorem allow_limit : (a.allow ip now).2.limit = a.limit := by
  by_cases h : a.Room ip now
  · rw [allow_room h]
    rfl
  · rw [(allow_full h).1]
    rfl

@[simp] theorem allow_window : (a.allow ip now).2.window = a.window := by
  by_cases h : a.Room ip now
  · rw [allow_room h]
    rfl
  · rw [(allow_full h).1]
    rfl

theorem left_sweep (h : now ≤ later) : (a.sweep now).left ip later = a.left ip later := by
  unfold left
  rw [find_sweep]
  exact Budget.live_mono h

/-- A call takes nothing from another address. -/
theorem left_other (hne : other ≠ ip) (h : now ≤ later) : (a.allow ip now).2.left other later = a.left other later := by
  by_cases hroom : a.Room ip now
  · rw [allow_room hroom, left, OrdMap.find_insert_ne hne]
    exact left_sweep h
  · rw [(allow_full hroom).1]
    exact left_sweep h

/-- With room, a call is answered from what is left, and leaves what was not taken. -/
theorem left_own (hroom : a.Room ip now) : (a.allow ip now).2.left ip later =
    Budget.live a.window later (some (Budget.spend a.limit now (a.left ip now)).2) := by
  rw [allow_room hroom, left, OrdMap.find_insert_self]
  rfl

theorem size_allow (h : a.entries.size ≤ maxAddresses) : (a.allow ip now).2.entries.size ≤ maxAddresses := by
  have hswept : (a.sweep now).entries.size ≤ maxAddresses := Nat.le_trans (OrdMap.size_retain_le _ _) h
  by_cases hroom : a.Room ip now
  · rw [allow_room hroom]
    dsimp only
    rcases hroom with hsome | hlt
    · rw [OrdMap.size_insert_old _ (by rw [OrdMap.contains, find_sweep]; exact hsome)]
      exact hswept
    · exact Nat.le_trans (OrdMap.size_insert_le _ _ _) hlt
  · rw [(allow_full hroom).1]
    exact hswept

theorem find_other (hne : other ≠ ip) : (a.allow ip now).2.entries.find? other = a.left other now := by
  by_cases hroom : a.Room ip now
  · rw [allow_room hroom, OrdMap.find_insert_ne hne, find_sweep]
  · rw [(allow_full hroom).1, find_sweep]

/-! ## Every run -/

@[simp] theorem run_cons : a.run (call :: calls) = (a.allow call.ip call.now).2.run calls := rfl

@[simp] theorem trace_cons : a.trace (call :: calls) =
    (call, (a.allow call.ip call.now).1) :: (a.allow call.ip call.now).2.trace calls := rfl

theorem run_limit (calls : List AdmissionCall) (a : Admission) :
    (a.run calls).limit = a.limit ∧ (a.run calls).window = a.window := by
  induction calls generalizing a with
  | nil => exact ⟨rfl, rfl⟩
  | cons call rest ih =>
    rw [run_cons, (ih _).1, (ih _).2]
    exact ⟨allow_limit, allow_window⟩

theorem trace_append (before after : List AdmissionCall) (a : Admission) :
    a.trace (before ++ after) = a.trace before ++ (a.run before).trace after := by
  induction before generalizing a with
  | nil => rfl
  | cons call rest ih => rw [List.cons_append, trace_cons, ih, trace_cons, run_cons, List.cons_append]

theorem size_run (calls : List AdmissionCall) (h : a.entries.size ≤ maxAddresses) :
    (a.run calls).entries.size ≤ maxAddresses := by
  induction calls generalizing a with
  | nil => exact h
  | cons call rest ih => exact ih (size_allow h)

/-! ## Windows -/

/-- The table has the window that the answers show, as long as it is not over. -/
def Tracks (a : Admission) (ip : IpAddr) (start : Option Nat) (now : Nat) : Prop :=
  ∀ later, now ≤ later → (a.left ip later).map (·.since) = start.filter fun since => later - since < a.window

theorem Tracks.step {start : Option Nat} (hlimit : 0 < a.limit) (ht : a.Tracks ip start now) (hnow : now ≤ call.now) :
    (a.allow call.ip call.now).2.Tracks ip (nextStart a.window ip start (call, (a.allow call.ip call.now).1)) call.now := by
  intro later hlater
  rw [allow_window]
  have hthen := ht later (Nat.le_trans hnow hlater)
  have hsince := ht call.now hnow
  unfold nextStart
  dsimp only
  by_cases hip : call.ip = ip
  · subst hip
    by_cases hroom : a.Room call.ip call.now
    · rw [left_own hroom, allow_room hroom]
      dsimp only
      cases hleft : a.left call.ip call.now with
      | none =>
        -- the last window is over, and this call begins one
        rw [hleft] at hsince
        have hover : start.all (fun since => a.window ≤ call.now - since) = true := by
          cases start with
          | none => rfl
          | some since =>
            have hno : ¬ (call.now - since < a.window) := by
              intro hlt
              simp [Option.filter, hlt] at hsince
            simpa using hno
        rw [Budget.spend_none hlimit, if_pos ⟨rfl, rfl, hover⟩, Budget.live]
        by_cases hf : later - call.now < a.window <;> simp [Option.filter, Budget.fresh, hf]
      | some budget =>
        rw [hleft] at hsince
        obtain ⟨hstart, hlt⟩ : start = some budget.since ∧ call.now - budget.since < a.window := by
          have := hsince.symm
          rw [Option.map_some, Option.filter_eq_some_iff, decide_eq_true_eq] at this
          exact this
        rw [if_neg (by rw [hstart]; simp [hlt]), hstart, Budget.live]
        have hkeep := @Budget.spend_since a.limit call.now budget
        by_cases hf : later - budget.since < a.window <;> simp [Option.filter, Budget.fresh, hkeep, hf]
    · rw [(allow_full hroom).1, left_sweep hlater, if_neg (by simp)]
      exact hthen
  · rw [left_other (Ne.symm hip) hlater, if_neg (fun h => hip h.1)]
    exact hthen

theorem Tracks.run {start : Option Nat} (hlimit : 0 < a.limit) (ht : a.Tracks ip start now)
    (hnow : ∀ call ∈ calls, now ≤ call.now)
    (hsorted : calls.Pairwise fun x y => x.now ≤ y.now) (hlater : ∀ call ∈ calls, call.now ≤ later) (hfrom : now ≤ later) :
    (a.run calls).Tracks ip ((a.trace calls).foldl (nextStart a.window ip) start) later := by
  induction calls generalizing a start now with
  | nil => exact fun time htime => ht time (Nat.le_trans hfrom htime)
  | cons call rest ih =>
    obtain ⟨hfirst, hrest⟩ := List.pairwise_cons.mp hsorted
    have hstep := ht.step hlimit (hnow call List.mem_cons_self)
    have hgo := ih (by rw [allow_limit]; exact hlimit) hstep hfirst hrest (fun c hc => hlater c (List.mem_cons_of_mem _ hc))
      (hlater call List.mem_cons_self)
    rw [run_cons, trace_cons, List.foldl_cons]
    rwa [allow_window] at hgo

theorem new_tracks (limit window : Nat) (ip : IpAddr) : (new limit window).Tracks ip none 0 := fun _ _ => rfl

/-- Nobody is let in without a limit to use up. -/
theorem granted_pos (h : (a.allow ip now).1 = true) : 0 < a.limit := by
  by_cases hroom : a.Room ip now
  · rw [allow_room hroom] at h
    unfold Budget.spend at h
    dsimp only at h
    split at h
    · cases h
    · omega
  · rw [(allow_full hroom).1] at h
    cases h

theorem trace_granted {e : AdmissionCall × Bool} (he : e ∈ a.trace calls) (h : e.2 = true) : 0 < a.limit := by
  induction calls generalizing a with
  | nil => cases he
  | cons call rest ih =>
    rcases List.mem_cons.mp he with rfl | he
    · exact granted_pos h
    · have := ih he
      rwa [allow_limit] at this

/-- A window has begun by a call let in. -/
theorem windowStart_granted {answered : List (AdmissionCall × Bool)} {since : Nat}
    (h : windowStart window ip answered = some since) :
    ∃ e ∈ answered, e.2 = true := by
  have hall : ∀ start, answered.foldl (nextStart window ip) start = start ∨ ∃ e ∈ answered, e.2 = true := by
    clear h
    induction answered with
    | nil => exact fun _ => Or.inl rfl
    | cons e rest ih =>
      intro start
      by_cases he : e.2 = true
      · exact Or.inr ⟨e, List.mem_cons_self, he⟩
      · have hsame : nextStart window ip start e = start := if_neg fun hall => he hall.2.1
        rw [List.foldl_cons, hsame]
        rcases ih start with hfold | ⟨found, hmem, hgranted⟩
        · exact Or.inl hfold
        · exact Or.inr ⟨found, List.mem_cons_of_mem _ hmem, hgranted⟩
  rcases hall none with hnone | hsome
  · unfold windowStart at h
    rw [hnone] at h
    cases h
  · exact hsome

theorem admitted_late (calls : List AdmissionCall) (a : Admission) {finish : Nat} (h : ∀ call ∈ calls, finish ≤ call.now) :
    admitted ip finish (a.trace calls) = [] := by
  induction calls generalizing a with
  | nil => rfl
  | cons call rest ih =>
    have hlate := h call List.mem_cons_self
    rw [trace_cons, admitted, List.filter_cons_of_neg (by simp; omega)]
    exact ih _ fun c hc => h c (List.mem_cons_of_mem _ hc)

/-- What is let in before a budget's window is over comes out of that budget. -/
theorem admitted_budget {budget : Budget} (hfind : a.entries.find? ip = some budget) (hcount : budget.count ≤ a.limit)
    (hsince : ∀ call ∈ calls, budget.since ≤ call.now) (hsorted : calls.Pairwise fun x y => x.now ≤ y.now) :
    (admitted ip (budget.since + a.window) (a.trace calls)).length + budget.count ≤ a.limit := by
  induction calls generalizing a budget with
  | nil => simpa [trace, admitted] using hcount
  | cons call rest ih =>
    obtain ⟨hfirst, hrest⟩ := List.pairwise_cons.mp hsorted
    have hbegun := hsince call List.mem_cons_self
    by_cases hfresh : call.now - budget.since < a.window
    · have hleft : a.left ip call.now = some budget := Budget.live_some.mpr ⟨hfind, hfresh⟩
      by_cases hip : call.ip = ip
      · subst hip
        have hroom : a.Room call.ip call.now := Or.inl (by rw [hleft]; rfl)
        have hspent := @Budget.spend_count a.limit call.now budget
        have hkeep := @Budget.spend_since a.limit call.now budget
        have hle := @Budget.spend_le a.limit call.now (some budget) fun other hother => (Option.some.inj hother) ▸ hcount
        have hnext : (a.allow call.ip call.now).2.entries.find? call.ip =
            some (Budget.spend a.limit call.now (some budget)).2 := by
          rw [allow_room hroom, hleft]
          exact OrdMap.find_insert_self
        have hgo := ih hnext (by rw [allow_limit]; exact hle)
          (fun c hc => by rw [hkeep]; exact Nat.le_trans hbegun (hfirst c hc)) hrest
        have hanswer : (a.allow call.ip call.now).1 =
            (Budget.spend a.limit call.now (some budget)).1 := by
          rw [allow_room hroom, hleft]
        rw [allow_limit, allow_window, hkeep, hspent] at hgo
        rw [trace_cons, admitted, List.filter_cons, hanswer]
        cases hgranted : (Budget.spend a.limit call.now (some budget)).1 with
        | true =>
          rw [hgranted, if_pos rfl] at hgo
          rw [if_pos (by simp; omega), List.length_cons]
          unfold admitted at hgo
          omega
        | false =>
          rw [hgranted] at hgo
          rw [if_neg (by simp)]
          exact hgo
      · have hnext : (a.allow call.ip call.now).2.entries.find? ip = some budget := by
          rw [find_other (Ne.symm hip)]
          exact hleft
        have hgo := ih hnext (by rw [allow_limit]; exact hcount) (fun c hc => Nat.le_trans hbegun (hfirst c hc)) hrest
        rw [allow_limit, allow_window] at hgo
        rw [trace_cons, admitted, List.filter_cons_of_neg (by simp [hip])]
        exact hgo
    · have hlate : ∀ c ∈ call :: rest, budget.since + a.window ≤ c.now := by
        intro c hc
        have hover : budget.since + a.window ≤ call.now := by omega
        rcases List.mem_cons.mp hc with rfl | hc
        · exact hover
        · exact Nat.le_trans hover (hfirst c hc)
      rw [admitted_late _ _ hlate]
      simpa using hcount

/-- A call that begins a window finds nothing left of the last one. -/
theorem Tracks.over {start : Option Nat} (ht : a.Tracks ip start now)
    (hover : start.all (fun since => a.window ≤ now - since) = true) : a.left ip now = none := by
  have hsince := ht now (Nat.le_refl now)
  cases hleft : a.left ip now with
  | none => rfl
  | some budget =>
    rw [hleft] at hsince
    obtain ⟨rfl, hlt⟩ : start = some budget.since ∧ now - budget.since < a.window := by
      have := hsince.symm
      rw [Option.map_some, Option.filter_eq_some_iff, decide_eq_true_eq] at this
      exact this
    simp only [Option.all_some, decide_eq_true_eq] at hover
    omega

theorem admitted_window (hsorted : (call :: after).Pairwise fun x y => x.now ≤ y.now)
    (hgranted : (a.allow call.ip call.now).1 = true)
    (hleft : a.left call.ip call.now = none) :
    (admitted call.ip (call.now + a.window) (a.trace (call :: after))).length ≤ a.limit := by
  obtain ⟨hfirst, hrest⟩ := List.pairwise_cons.mp hsorted
  have hlimit := granted_pos hgranted
  have hroom : a.Room call.ip call.now := by
    by_contra hfull
    rw [(allow_full hfull).1] at hgranted
    cases hgranted
  have hbegun : (a.allow call.ip call.now).2.entries.find? call.ip = some ⟨call.now, 1⟩ := by
    rw [allow_room hroom, hleft, Budget.spend_none hlimit]
    exact OrdMap.find_insert_self
  have hbudget := admitted_budget hbegun (by rw [allow_limit]; exact hlimit) hfirst hrest
  rw [allow_limit, allow_window] at hbudget
  rw [trace_cons, admitted, List.filter_cons]
  unfold admitted at hbudget
  dsimp only at hbudget
  split
  · rw [List.length_cons]
    exact hbudget
  · omega

/-! ## One address among others -/

/-- The two tables have the same left for the address from now on. -/
structure Alike (a b : Admission) (ip : IpAddr) (now : Nat) : Prop where
  limit : b.limit = a.limit
  window : b.window = a.window
  left : ∀ later, now ≤ later → b.left ip later = a.left ip later

/-- Only this address is tracked. -/
def Alone (b : Admission) (ip : IpAddr) : Prop := ∀ other, other ≠ ip → b.entries.find? other = none

theorem Alone.room (hb : b.Alone ip) (now : Nat) : b.Room ip now := by
  by_cases hsome : (b.left ip now).isSome = true
  · exact Or.inl hsome
  · refine Or.inr ?_
    have hempty : (b.sweep now).entries = .empty := by
      refine OrdMap.ext_find ?_
      intro other
      rw [find_sweep, OrdMap.find_empty]
      by_cases hother : other = ip
      · rw [hother]
        simpa using hsome
      · rw [left, hb other hother]
        rfl
    rw [hempty]
    decide

theorem Alone.allow (hb : b.Alone ip) (now : Nat) : (b.allow ip now).2.Alone ip := by
  intro other hother
  rw [find_other hother, left, hb other hother]
  rfl

/-- With room at each of its calls, an address is answered as in a table of its own. -/
theorem answers_alone (hsame : Alike a b ip now) (hb : b.Alone ip) (hnow : ∀ call ∈ calls, now ≤ call.now)
    (hsorted : calls.Pairwise fun x y => x.now ≤ y.now)
    (hroom : ∀ before call after, calls = before ++ call :: after → call.ip = ip → (a.run before).Room ip call.now) :
    answersTo ip (a.trace calls) = answersTo ip (b.trace (calls.filter fun call => call.ip = ip)) := by
  induction calls generalizing a b now with
  | nil => rfl
  | cons call rest ih =>
    obtain ⟨hfirst, hrest⟩ := List.pairwise_cons.mp hsorted
    have hthen := hnow call List.mem_cons_self
    have hafter : ∀ before c after, rest = before ++ c :: after → c.ip = ip →
        ((a.allow call.ip call.now).2.run before).Room ip c.now := by
      intro before c after he hip
      exact hroom (call :: before) c after (by rw [he, List.cons_append]) hip
    by_cases hip : call.ip = ip
    · subst hip
      have hhere : a.Room call.ip call.now := hroom [] call rest rfl rfl
      have hleft : b.left call.ip call.now = a.left call.ip call.now := hsame.left call.now hthen
      have halike : Alike (a.allow call.ip call.now).2 (b.allow call.ip call.now).2 call.ip call.now := by
        refine ⟨by rw [allow_limit, allow_limit, hsame.limit], by rw [allow_window, allow_window, hsame.window], ?_⟩
        intro later hlater
        rw [left_own (hb.room call.now), left_own hhere, hsame.limit, hsame.window, hleft]
      have hanswer : (b.allow call.ip call.now).1 = (a.allow call.ip call.now).1 := by
        rw [allow_room hhere, allow_room (hb.room call.now), hsame.limit, hleft]
      have hgo := ih halike (hb.allow call.now) hfirst hrest hafter
      rw [List.filter_cons_of_pos (by simp), trace_cons, trace_cons, answersTo, List.filter_cons_of_pos (by simp),
        answersTo, List.filter_cons_of_pos (by simp), List.map_cons, List.map_cons, hanswer]
      exact congrArg _ hgo
    · have halike : Alike (a.allow call.ip call.now).2 b ip call.now := by
        refine ⟨by rw [allow_limit, hsame.limit], by rw [allow_window, hsame.window], ?_⟩
        intro later hlater
        rw [left_other (Ne.symm hip) hlater]
        exact hsame.left later (Nat.le_trans hthen hlater)
      rw [List.filter_cons_of_neg (by simpa using hip), trace_cons, answersTo, List.filter_cons_of_neg (by simpa using hip)]
      exact ih halike hb hfirst hrest hafter

/-- From the call that begins an address's window on, at most `limit` are let in before its end;
    a call at its end or later is, exactly when there is room; at most `maxAddresses` are tracked;
    and an address that finds room at each of its calls is answered as if nobody else called. -/
theorem calls_admitted (limit window : Nat) (calls : List AdmissionCall) (hsorted : calls.Pairwise fun x y => x.now ≤ y.now) :
    (∀ before call after, calls = before ++ call :: after → (((new limit window).run before).allow call.ip call.now).1 = true →
      (windowStart window call.ip ((new limit window).trace before)).all (fun since => window ≤ call.now - since) = true →
      (admitted call.ip (call.now + window) (((new limit window).run before).trace (call :: after))).length ≤ limit) ∧
    (∀ before call after since, calls = before ++ call :: after →
      windowStart window call.ip ((new limit window).trace before) = some since → since + window ≤ call.now →
      ((((new limit window).run before).allow call.ip call.now).1 = true ↔
        (((new limit window).run before).sweep call.now).entries.size < maxAddresses)) ∧
    ((new limit window).run calls).entries.size ≤ maxAddresses ∧
    ∀ ip, (∀ before call after, calls = before ++ call :: after → call.ip = ip →
        ((new limit window).run before).Room ip call.now) →
      answersTo ip ((new limit window).trace calls) =
        answersTo ip ((new limit window).trace (calls.filter fun call => call.ip = ip)) := by
  have htracks : ∀ before call after, calls = before ++ call :: after → 0 < limit →
      ((new limit window).run before).Tracks call.ip (windowStart window call.ip ((new limit window).trace before)) call.now := by
    intro before call after he hlimit
    rw [he, List.pairwise_append] at hsorted
    exact (new_tracks limit window call.ip).run hlimit (fun _ _ => Nat.zero_le _) hsorted.1
      (fun c hc => hsorted.2.2 c hc call List.mem_cons_self) (Nat.zero_le _)
  refine ⟨?_, ?_, ?_, ?_⟩
  · intro before call after he hgranted hbegins
    obtain ⟨hlimit, hwindow⟩ := run_limit before (new limit window)
    have hpos := granted_pos hgranted
    rw [hlimit] at hpos
    have hover := (htracks before call after he hpos).over (by rw [hwindow]; exact hbegins)
    rw [he, List.pairwise_append] at hsorted
    have hwithin := admitted_window hsorted.2.1 hgranted hover
    rwa [hlimit, hwindow] at hwithin
  · intro before call after since he hstart hended
    obtain ⟨hlimit, hwindow⟩ := run_limit before (new limit window)
    obtain ⟨e, hmem, hgranted⟩ := windowStart_granted hstart
    have hpos : 0 < limit := trace_granted hmem hgranted
    have hover : ((new limit window).run before).left call.ip call.now = none := by
      refine (htracks before call after he hpos).over ?_
      rw [hstart, hwindow, Option.all_some, decide_eq_true_eq]
      show window ≤ _
      omega
    by_cases hroom : ((new limit window).run before).Room call.ip call.now
    · have hsize : (((new limit window).run before).sweep call.now).entries.size < maxAddresses := by
        rcases hroom with hsome | hlt
        · rw [hover] at hsome
          cases hsome
        · exact hlt
      rw [allow_room hroom, hover, hlimit, Budget.spend_none (show 0 < (new limit window).limit from hpos)]
      simp [hsize]
    · rw [(allow_full hroom).1]
      simp only [Bool.false_eq_true, false_iff]
      exact fun hlt => hroom (Or.inr hlt)
  · exact size_run calls (Nat.zero_le _)
  · intro ip hroom
    exact answers_alone ⟨rfl, rfl, fun _ _ => rfl⟩ (fun _ _ => rfl) (fun _ _ => Nat.zero_le _) hsorted hroom

/-- Two of three calls are let in, another address's call too, and the first address's again at its window's end. -/
theorem calls_admitted_again :
    (((new 2 10).run [⟨.v4 1, 0⟩, ⟨.v4 1, 0⟩, ⟨.v4 1, 3⟩, ⟨.v4 2, 3⟩]).allow (.v4 1) 10).1 = true := by
  have hstart : windowStart 10 (.v4 1) ((new 2 10).trace [⟨.v4 1, 0⟩, ⟨.v4 1, 0⟩, ⟨.v4 1, 3⟩, ⟨.v4 2, 3⟩]) = some 0 := by decide
  have hsorted : [(⟨.v4 1, 0⟩ : AdmissionCall), ⟨.v4 1, 0⟩, ⟨.v4 1, 3⟩, ⟨.v4 2, 3⟩, ⟨.v4 1, 10⟩].Pairwise fun x y =>
      x.now ≤ y.now := by
    decide
  exact ((calls_admitted 2 10 _ hsorted).2.1 [⟨.v4 1, 0⟩, ⟨.v4 1, 0⟩, ⟨.v4 1, 3⟩, ⟨.v4 2, 3⟩] ⟨.v4 1, 10⟩ [] 0 rfl hstart
    (by decide)).mpr (by decide)

/-! ## A full table -/

/-- Every window is running. -/
def Running (a : Admission) (now : Nat) : Prop := ∀ ip, a.left ip now = a.entries.find? ip

theorem Running.sweep (hr : a.Running now) : (a.sweep now).entries = a.entries := by
  refine OrdMap.ext_find ?_
  intro ip
  rw [find_sweep, hr]

/-- New addresses that call at one time are all tracked, while there is room. -/
theorem Running.fill (hr : a.Running now) (hwindow : 0 < a.window) (ips : List IpAddr) (hnodup : ips.Nodup)
    (hnew : ∀ ip ∈ ips, a.entries.find? ip = none) (hroom : a.entries.size + ips.length ≤ maxAddresses) :
    (a.run (ips.map (⟨·, now⟩))).Running now ∧ (a.run (ips.map (⟨·, now⟩))).entries.size = a.entries.size + ips.length ∧
      ∀ other ∉ ips, (a.run (ips.map (⟨·, now⟩))).entries.find? other = a.entries.find? other := by
  induction ips generalizing a with
  | nil => exact ⟨hr, rfl, fun _ _ => rfl⟩
  | cons ip rest ih =>
    obtain ⟨hfirst, hrest⟩ := List.nodup_cons.mp hnodup
    rw [List.length_cons] at hroom
    have hhere : a.Room ip now := Or.inr (by rw [hr.sweep]; omega)
    have hfound : ∀ other, (a.allow ip now).2.entries.find? other =
        if other = ip then some (Budget.spend a.limit now (a.left ip now)).2 else a.entries.find? other := by
      intro other
      rw [allow_room hhere]
      by_cases hother : other = ip
      · rw [if_pos hother, hother, OrdMap.find_insert_self]
      · rw [if_neg hother, OrdMap.find_insert_ne hother, find_sweep, hr]
    have hbegun : (Budget.spend a.limit now (a.left ip now)).2.since = now := by
      rw [hr, hnew ip List.mem_cons_self]
      unfold Budget.spend
      dsimp only
      split <;> rfl
    have hrunning : (a.allow ip now).2.Running now := by
      intro other
      rw [left, allow_window, hfound]
      by_cases hother : other = ip
      · rw [if_pos hother]
        exact Budget.live_some.mpr ⟨rfl, by rw [hbegun]; omega⟩
      · rw [if_neg hother]
        exact hr other
    have hsize : (a.allow ip now).2.entries.size = a.entries.size + 1 := by
      rw [allow_room hhere]
      dsimp only
      rw [hr.sweep, OrdMap.size_insert_new _ (hnew ip List.mem_cons_self)]
    have hunseen : ∀ other ∈ rest, (a.allow ip now).2.entries.find? other = none := by
      intro other hother
      have hne : other ≠ ip := fun he => hfirst (he ▸ hother)
      rw [hfound, if_neg hne]
      exact hnew other (List.mem_cons_of_mem _ hother)
    obtain ⟨hrun, hcount, hothers⟩ := ih hrunning (by rw [allow_window]; exact hwindow) hrest hunseen (by omega)
    rw [List.map_cons, run_cons, List.length_cons]
    refine ⟨hrun, ?_, ?_⟩
    · show ((a.allow ip now).2.run (rest.map (⟨·, now⟩))).entries.size = _
      rw [hcount, hsize]
      omega
    intro other hother
    rw [List.mem_cons, not_or] at hother
    rw [hothers other hother.2, hfound, if_neg hother.1]

/-- The addresses that fill the table after the first one's window. -/
def crowd : List IpAddr := (List.range' 2 1023).map fun n => .v4 (BitVec.ofNat 32 n)

def crowdedCalls : List AdmissionCall := [⟨.v4 0, 0⟩, ⟨.v4 1, 10⟩] ++ crowd.map fun ip => ⟨ip, 10⟩

theorem mem_crowd {ip : IpAddr} (h : ip ∈ crowd) : ∃ n, 2 ≤ n ∧ n < 1025 ∧ ip = .v4 (BitVec.ofNat 32 n) := by
  obtain ⟨n, hn, rfl⟩ := List.mem_map.mp h
  rw [List.mem_range'_1] at hn
  exact ⟨n, hn.1, by omega, rfl⟩

theorem ofNat_inj {i j : Nat} (hi : i < 1025) (hj : j < 1025)
    (h : IpAddr.v4 (BitVec.ofNat 32 i) = .v4 (BitVec.ofNat 32 j)) : i = j := by
  have hval := congrArg BitVec.toNat (IpAddr.v4.inj h)
  rwa [BitVec.toNat_ofNat, BitVec.toNat_ofNat, Nat.mod_eq_of_lt (by omega), Nat.mod_eq_of_lt (by omega)] at hval

theorem nodup_crowd : crowd.Nodup := by
  refine List.Nodup.map_on ?_ List.nodup_range'
  intro i hi j hj h
  rw [List.mem_range'_1] at hi hj
  exact ofNat_inj (by omega) (by omega) h

theorem foldl_others {start : Option Nat} (calls : List AdmissionCall) (a : Admission) (h : ∀ call ∈ calls, call.ip ≠ ip) :
    (a.trace calls).foldl (nextStart window ip) start = start := by
  induction calls generalizing a with
  | nil => rfl
  | cons call rest ih =>
    have hsame : nextStart window ip start (call, (a.allow call.ip call.now).1) = start :=
      if_neg fun hall => h call List.mem_cons_self hall.1
    rw [trace_cons, List.foldl_cons, hsame]
    exact ih _ fun c hc => h c (List.mem_cons_of_mem _ hc)

/-- The window of the first address is over and it has not called since, and it is refused. -/
theorem full_table_refuses : (crowdedCalls ++ [(⟨.v4 0, 10⟩ : AdmissionCall)]).Pairwise (fun x y => x.now ≤ y.now) ∧
    windowStart 10 (.v4 0) ((new 1 10).trace crowdedCalls) = some 0 ∧ 0 + 10 ≤ 10 ∧
      (((new 1 10).run crowdedCalls).allow (.v4 0) 10).1 = false := by
  have hbefore : (new 1 10).run [⟨.v4 0, 0⟩, ⟨.v4 1, 10⟩] = ⟨OrdMap.empty.insert (.v4 1) ⟨10, 1⟩, 1, 10⟩ := rfl
  have hrunning : Running ⟨OrdMap.empty.insert (.v4 1) ⟨10, 1⟩, 1, 10⟩ 10 := by
    intro ip
    rw [left]
    dsimp only
    rw [OrdMap.find_insert]
    by_cases hip : ip = .v4 1
    · rw [if_pos hip]
      rfl
    · rw [if_neg hip]
      rfl
  have hunseen : ∀ ip ∈ crowd, (OrdMap.empty.insert (IpAddr.v4 1) (⟨10, 1⟩ : Budget)).find? ip = none := by
    intro ip hip
    obtain ⟨n, hlow, hhigh, rfl⟩ := mem_crowd hip
    have hne : IpAddr.v4 (BitVec.ofNat 32 n) ≠ .v4 1 := by
      intro he
      have hn : n = 1 := ofNat_inj hhigh (by decide) he
      omega
    rw [OrdMap.find_insert_ne hne]
    rfl
  have hout : IpAddr.v4 0 ∉ crowd := by
    intro hmem
    obtain ⟨n, hlow, hhigh, he⟩ := mem_crowd hmem
    have hn : 0 = n := ofNat_inj (by decide) hhigh he
    omega
  obtain ⟨hfull, hsize, hothers⟩ := hrunning.fill (by decide) crowd nodup_crowd hunseen (by simp [crowd]; decide)
  have hrun : (new 1 10).run crowdedCalls =
      (⟨OrdMap.empty.insert (.v4 1) ⟨10, 1⟩, 1, 10⟩ : Admission).run (crowd.map (⟨·, 10⟩)) := by
    rw [← hbefore]
    exact List.foldl_append
  refine ⟨?_, ?_, Nat.le_refl 10, ?_⟩
  · rw [List.pairwise_append]
    refine ⟨?_, List.pairwise_singleton _ _, ?_⟩
    · unfold crowdedCalls
      rw [List.pairwise_append]
      refine ⟨by decide, ?_, ?_⟩
      · rw [List.pairwise_map]
        exact List.pairwise_of_forall fun _ _ => Nat.le_refl _
      · intro x hx y hy
        obtain ⟨ip, _, rfl⟩ := List.mem_map.mp hy
        simp only [List.mem_cons, List.not_mem_nil, or_false] at hx
        rcases hx with rfl | rfl
        · exact Nat.zero_le _
        · exact Nat.le_refl _
    · intro x hx y hy
      obtain rfl := List.mem_singleton.mp hy
      rcases List.mem_append.mp hx with hx | hx
      · simp only [List.mem_cons, List.not_mem_nil, or_false] at hx
        rcases hx with rfl | rfl <;> decide
      · obtain ⟨ip, _, rfl⟩ := List.mem_map.mp hx
        exact Nat.le_refl _
  · unfold crowdedCalls windowStart
    rw [trace_append, List.foldl_append, foldl_others]
    · rfl
    · intro call hcall
      obtain ⟨ip, hip, rfl⟩ := List.mem_map.mp hcall
      rintro rfl
      exact hout hip
  · rw [hrun, (allow_full ?_).1]
    rintro (hsome | hroom)
    · rw [hfull, hothers _ hout] at hsome
      cases hsome
    · rw [hfull.sweep, hsize] at hroom
      simp [crowd, maxAddresses, OrdMap.size, OrdMap.insert, OrdMap.insertEntry, OrdMap.empty] at hroom

end Admission

end OpenFelt
